/- GID: IcsOs/Vfs/Paths
   generality: I
   source: kernel/vfs/vfs_core.c, kernel/vfs/vfs_aux.c,
     kernel/stdlib/stdlib.c
   digest: Names resolved by text and tokens, against the walk along their components. -/

import Mathlib.Data.List.TakeWhile
import IcsOs.Lib.Tokens

set_option autoImplicit false

namespace IcsOs.Vfs.Paths

open List Option
open Lib.Tokens

abbrev Name := List Char

/-- The nodes, the root as node 0. A directory not mounted yet has the list its driver makes on
entering; a parent is nearer to the root than its entries. -/
structure Tree where
  name : Nat → Name
  directory : Nat → Bool
  path : Nat → Option Nat
  files : Nat → List Nat
  level : Nat → Nat
  root_name : name 0 = []
  root_directory : directory 0 = true
  root_iff : ∀ n, path n = none ↔ n = 0
  nearer : ∀ n d, path n = some d → level d < level n

def dot : Name := ['.']

def dotdot : Name := ['.', '.']

def slash (c : Char) : Bool := c == '/'

/-- The rest is kept for the next call; `zero` are the delimiters at address 0. -/
def strtok (delim : List Char) (s : Name) : Option (Name × Option Name) :=
  token (fun c => delim.contains c) s

def vfsNameeq : Name → Name → Bool
  | [], [] => true
  | a :: as, b :: bs => a.toLower == b.toLower && vfsNameeq as bs
  | _, _ => false

/-- What `getfullpath` copies of one node. -/
def segment (t : Tree) (n : Nat) : Name := t.name n ++ if t.directory n then ['/'] else []

/-- The loop of `getfullpath`, which collects the path backwards. -/
def fullpathLoop (t : Tree) : Nat → Nat → Name → Name
  | 0, n, s => s ++ (segment t n).reverse
  | k + 1, n, s =>
    match t.path n with
    | none => s ++ (segment t n).reverse
    | some d => fullpathLoop t k d (s ++ (segment t n).reverse)

def getfullpath (t : Tree) (n : Nat) : Name := (fullpathLoop t (t.level n) n []).reverse

def vfsIspathcut (name : Name) : Bool := name.getLast? == some ':'

def vfsGetpathcut (cuts : List (Name × Name)) (name : Name) : Option Name :=
  (cuts.find? fun cut => name == cut.1).map Prod.snd

/-- What `strtok(0,0)` leaves in `next_entry`. -/
def nextEntry (zero : List Char) (rest : Option Name) : Name :=
  match rest.bind (strtok zero) with
  | none => []
  | some (s, _) => s

/-- The text that `vfs_searchname` puts in `path`. -/
def pathOf (t : Tree) (cuts : List (Name × Name)) (zero : List Char) (workdir : Nat) (name : Name) :
    Option Name :=
  if name.head? = some '/' then some name
  else
    match strtok ['/'] name with
    | none => none
    | some (first, rest) =>
      if vfsIspathcut first = true then
        match vfsGetpathcut cuts first with
        | some str => some (str ++ nextEntry zero rest)
        -- the first call of strtok has cut the buffer
        | none => some first
      else if first = dotdot then
        (t.path workdir).map fun d => getfullpath t d ++ nextEntry zero rest
      else some (getfullpath t workdir ++ name)

def proper (t : Tree) (p : Nat) : Bool :=
  t.directory p && (t.name p != dot) && (t.name p != dotdot)

/-- Along the list of a directory: `found` and `found_dir`. -/
def scan (t : Tree) (part : Name) (last : Bool) :
    List Nat → Option Nat → Option Nat → Option Nat × Option Nat
  | [], found, foundDir => (found, foundDir)
  | p :: ps, found, foundDir =>
    if vfsNameeq part (t.name p) = false then scan t part last ps found foundDir
    else if proper t p = true then
      if last then scan t part last ps found (some p) else (found, some p)
    else if last then scan t part last ps (some p) foundDir
    else scan t part last ps found foundDir

/-- The loop along the parts, with `cur_dir` and `node_ptr`. -/
def searchLoop (t : Tree) : Nat → List Nat → List Name → Option Nat
  | _, _, [] => none
  | curDir, nodePtr, part :: rest =>
    let last := rest.isEmpty
    if part = dot then
      if last then some curDir else searchLoop t curDir nodePtr rest
    else if part = dotdot then
      match t.path curDir with
      | none => if last then some 0 else searchLoop t curDir nodePtr rest
      | some d => if last then some d else searchLoop t d (t.files d) rest
    else
      match scan t part last nodePtr none none with
      | (found, foundDir) =>
        if last then foundDir.or found
        else
          match foundDir with
          | none => none
          | some d => searchLoop t d (t.files d) rest

/-- `vfs_searchname` from the text on; `parts` has room for 40. -/
def resolve (t : Tree) (path : Name) : Option Nat :=
  let path := if path.getLast? = some '/' then path.dropLast else path
  if path = [] then some 0
  else
    match tokens slash 40 path with
    | [] => some 0
    | part :: rest => searchLoop t 0 (t.files 0) (part :: rest)

def vfsSearchname (t : Tree) (cuts : List (Name × Name)) (zero : List Char) (workdir : Nat)
    (name : Name) : Option Nat :=
  if name = [] then some 0
  else if t.files 0 = [] then none
  else (pathOf t cuts zero workdir name).bind (resolve t)

def components (path : Name) : List Name := pieces slash path

def parent (t : Tree) (d : Nat) : Nat := (t.path d).getD 0

/-- The entries of a directory that a component names. -/
def named (t : Tree) (d : Nat) (part : Name) : List Nat :=
  (t.files d).filter fun p => vfsNameeq part (t.name p)

/-- A component that others follow leads into a directory. -/
def enter (t : Tree) (d : Nat) (part : Name) : Option Nat :=
  if part = dot then some d
  else if part = dotdot then some (parent t d)
  else (named t d part).find? (proper t)

/-- A directory, or else another entry. -/
def arrive (t : Tree) (d : Nat) (part : Name) : Option Nat :=
  if part = dot then some d
  else if part = dotdot then some (parent t d)
  else ((named t d part).reverse.find? (proper t)).or (named t d part).getLast?

/-- The node reached from a directory along components. -/
def walk (t : Tree) : Nat → List Name → Option Nat
  | d, [] => some d
  | d, [part] => arrive t d part
  | d, part :: next :: rest => (enter t d part).bind fun e => walk t e (next :: rest)

/-- A component does not exist, or is no directory and another follows. -/
def Broken (t : Tree) (d : Nat) (parts : List Name) : Prop :=
  ∃ before part after e, parts = before ++ part :: after ∧ before.foldlM (enter t) d = some e ∧
    part ≠ dot ∧ part ≠ dotdot ∧
      (named t e part = [] ∨ after ≠ [] ∧ ∀ p ∈ named t e part, proper t p = false)

/-- A directory at its own path, with that path's components. -/
inductive Placed (t : Tree) : Nat → List Name → Prop
  | root : Placed t 0 []
  | child {n d : Nat} {names : List Name} (up : Placed t d names) (path : t.path n = some d)
      (directory : t.directory n = true) (plain : ∀ c ∈ t.name n, slash c = false)
      (some' : t.name n ≠ []) (inner : enter t d (t.name n) = some n)
      (last : arrive t d (t.name n) = some n) : Placed t n (names ++ [t.name n])

variable {parts : List Name} {d : Nat} {first part : Name} {rest : Option Name}

section Loops

variable {t : Tree} {part : Name}

theorem scan_inner (l : List Nat) (found : Option Nat) :
    scan t part false l found none =
      (found, (l.filter fun p => vfsNameeq part (t.name p)).find? (proper t)) := by
  induction l with
  | nil => rfl
  | cons p l ih =>
    unfold scan
    cases same : vfsNameeq part (t.name p) with
    | false => rw [if_pos rfl, ih, filter_cons_of_neg (by simp [same])]
    | true =>
      rw [if_neg (by simp), filter_cons_of_pos (by exact same)]
      cases directory : proper t p with
      | true => simp [directory]
      | false => simp [directory, ih]

/-- The loop runs to the end of the list and keeps what it saw last. -/
theorem scan_last (l : List Nat) (found foundDir : Option Nat) :
    scan t part true l found foundDir =
      (((l.filter fun p => vfsNameeq part (t.name p)).reverse.find? fun p => !proper t p).or found,
        ((l.filter fun p => vfsNameeq part (t.name p)).reverse.find? (proper t)).or foundDir) := by
  induction l generalizing found foundDir with
  | nil => rfl
  | cons p l ih =>
    unfold scan
    cases same : vfsNameeq part (t.name p) with
    | false => rw [if_pos rfl, ih, filter_cons_of_neg (by simp [same])]
    | true =>
      rw [if_neg (by simp), filter_cons_of_pos (by exact same)]
      cases directory : proper t p with
      | true => simp [directory, ih]
      | false => simp [directory, ih]

theorem find_or_last (l : List Nat) (f : Nat → Bool) :
    (l.reverse.find? f).or (l.reverse.find? fun p => !f p) = (l.reverse.find? f).or l.getLast? := by
  cases first : l.reverse.find? f with
  | some p => rfl
  | none =>
    have all : ∀ p ∈ l.reverse, f p = false := by
      intro p member
      have := find?_eq_none.mp first p member
      simpa using this
    rw [none_or, none_or, ← head?_reverse]
    cases same : l.reverse with
    | nil => rfl
    | cons p rest =>
      have other : f p = false := all p (by simp [same])
      simp [other]

theorem searchLoop_eq (some' : parts ≠ []) (d : Nat) :
    searchLoop t d (t.files d) parts = walk t d parts := by
  induction parts generalizing d with
  | nil => exact absurd rfl some'
  | cons part rest ih =>
    unfold searchLoop
    cases rest with
    | nil =>
      unfold walk arrive
      simp only [isEmpty_nil, if_true]
      split_ifs with here up
      · rfl
      · unfold parent
        cases above : t.path d with
        | none => rfl
        | some e => rfl
      · rw [scan_last]
        simp only [or_none]
        exact find_or_last _ _
    | cons next rest =>
      have more : (next :: rest).isEmpty = false := rfl
      unfold walk enter
      simp only [more, Bool.false_eq_true, if_false]
      split_ifs with here up
      · exact ih (by simp) d
      · unfold parent
        cases above : t.path d with
        | none =>
          obtain rfl := (t.root_iff d).mp above
          exact ih (by simp) 0
        | some e => exact ih (by simp) e
      · rw [scan_inner]
        unfold named
        generalize find? (proper t) _ = into
        cases into with
        | none => rfl
        | some e => exact ih (by simp) e

theorem slash_slash : slash '/' = true := rfl

theorem resolve_eq {path : Name} (few : (components path).length ≤ 40) :
    resolve t path = walk t 0 (components path) := by
  have strip : components (if path.getLast? = some '/' then path.dropLast else path) =
      components path := by
    split_ifs with ends
    · have whole : path.dropLast ++ ['/'] = path := dropLast_append_getLast? '/' ends
      have split := pieces_append slash_slash path.dropLast []
      rw [whole, pieces_nil, append_nil] at split
      exact split.symm
    · rfl
  unfold resolve
  generalize (if path.getLast? = some '/' then path.dropLast else path) = text at strip ⊢
  dsimp only
  split_ifs with empty
  · rw [← strip, empty]
    rfl
  have parts : tokens slash 40 text = components path := by
    rw [tokens_eq]
    have fits : (components text).length ≤ 40 := by
      rw [strip]
      exact few
    exact (take_of_length_le fits).trans strip
  rw [parts]
  cases components path with
  | nil => rfl
  | cons part rest => exact searchLoop_eq (by simp) 0

end Loops

section Text

variable {t : Tree} {n : Nat} {names : List Name}

theorem walk_cons {e : Nat} (into : enter t d part = some e) {rest : List Name} (more : rest ≠ []) :
    walk t d (part :: rest) = walk t e rest := by
  cases rest with
  | nil => exact absurd rfl more
  | cons next rest =>
    rw [walk, into]
    rfl

/-- A walk along the path of a directory comes to it. -/
theorem walk_placed (placed : Placed t n names) (parts : List Name) :
    walk t 0 (names ++ parts) = walk t n parts := by
  induction placed generalizing parts with
  | root => rfl
  | child up path directory plain some' inner last ih =>
    rw [append_assoc, singleton_append, ih]
    cases parts with
    | nil => exact last
    | cons part rest => exact walk_cons inner (by simp)

/-- The path of a directory ends with a slash, behind the names of the directory and of those above
it. -/
theorem fullpath_placed (placed : Placed t n names) :
    ∃ text, components text = names ∧ ∀ k s, t.level n ≤ k →
      (fullpathLoop t k n s).reverse = text ++ '/' :: s.reverse := by
  induction placed with
  | root =>
    refine ⟨[], rfl, ?_⟩
    intro k s _
    have alone : t.path 0 = none := (t.root_iff 0).mpr rfl
    have root : segment t 0 = ['/'] := by
      unfold segment
      rw [t.root_name, t.root_directory]
      rfl
    cases k with
    | zero => simp [fullpathLoop, root]
    | succ k => simp [fullpathLoop, root, alone]
  | @child n d names up path directory plain some' inner last ih =>
    obtain ⟨text, parts, loop⟩ := ih
    refine ⟨text ++ '/' :: t.name n, ?_, ?_⟩
    · unfold components at parts ⊢
      rw [pieces_append slash_slash, parts, pieces_single plain some']
    intro k s enough
    have nearer := t.nearer n d path
    have own : segment t n = t.name n ++ ['/'] := by
      unfold segment
      rw [directory]
      rfl
    cases k with
    | zero => omega
    | succ k =>
      unfold fullpathLoop
      rw [path]
      rw [loop k _ (by omega), own]
      simp

theorem components_fullpath (placed : Placed t n names) (s : Name) :
    components (getfullpath t n ++ s) = names ++ components s := by
  obtain ⟨text, parts, loop⟩ := fullpath_placed placed
  unfold getfullpath
  rw [loop (t.level n) [] (Nat.le_refl _)]
  unfold components at parts ⊢
  rw [reverse_nil, append_assoc, cons_append, nil_append,
    pieces_append slash_slash, parts]

theorem strtok_slash (s : Name) : strtok ['/'] s = token slash s := by
  unfold strtok
  congr 1
  funext c
  rw [contains_cons, contains_nil, Bool.or_false]
  rfl

/-- What stands behind the first token is text of the path. -/
theorem token_rest {s rest : Name} (found : token slash s = some (first, some rest)) :
    ∀ c ∈ rest, c ∈ s := by
  intro c member
  unfold token at found
  split at found
  · cases found
  rename_i head s' start
  simp only [Option.some.injEq, Prod.mk.injEq] at found
  have tail := found.2
  split at tail
  · cases tail
  rename_i ended later stop
  cases tail
  have inTail : c ∈ s' :=
    (dropWhile_suffix _).subset (stop ▸ mem_cons_of_mem ended member)
  exact (dropWhile_suffix _).subset (start ▸ mem_cons_of_mem head inTail)

/-- Without a delimiter in it, the rest of the path is taken whole. -/
theorem nextEntry_eq {zero : List Char} (apart : ∀ c ∈ rest.getD [], c ∉ zero) :
    nextEntry zero rest = rest.getD [] := by
  cases rest with
  | none => rfl
  | some s =>
    have plain : ∀ c ∈ s, zero.contains c = false := by
      intro c member
      have := apart c member
      simpa using this
    cases s with
    | nil => rfl
    | cons c s =>
      have keep : (c :: s).dropWhile (fun c => zero.contains c) = c :: s :=
        dropWhile_cons_of_neg (by simpa using plain c (by simp))
      have whole : s.takeWhile (fun c => !zero.contains c) = s := by
        rw [takeWhile_eq_self_iff]
        intro c' member
        simpa using plain c' (mem_cons_of_mem _ member)
      have ends : s.dropWhile (fun c => !zero.contains c) = [] := by
        rw [dropWhile_eq_nil_iff]
        intro c' member
        simpa using plain c' (mem_cons_of_mem _ member)
      unfold nextEntry strtok token
      simp only [bind_some, keep, whole, ends, getD_some]

end Text

section Failure

variable {t : Tree}

theorem arrive_none :
    arrive t d part = none ↔ part ≠ dot ∧ part ≠ dotdot ∧ named t d part = [] := by
  unfold arrive
  split_ifs with here up
  · simp [here]
  · simp [up]
  rw [or_eq_none_iff, getLast?_eq_none_iff]
  constructor
  · intro both
    exact ⟨here, up, both.2⟩
  · rintro ⟨-, -, empty⟩
    rw [empty]
    exact ⟨rfl, rfl⟩

theorem enter_none :
    enter t d part = none ↔
      part ≠ dot ∧ part ≠ dotdot ∧ ∀ p ∈ named t d part, proper t p = false := by
  unfold enter
  split_ifs with here up
  · simp [here]
  · simp [up]
  rw [find?_eq_none]
  constructor
  · intro none
    refine ⟨here, up, ?_⟩
    intro p member
    have := none p member
    simpa using this
  · rintro ⟨-, -, none⟩ p member
    simp [none p member]

theorem broken_cons {rest : List Name} :
    Broken t d (part :: rest) ↔ (part ≠ dot ∧ part ≠ dotdot ∧
        (named t d part = [] ∨ rest ≠ [] ∧ ∀ p ∈ named t d part, proper t p = false)) ∨
      ∃ e, enter t d part = some e ∧ Broken t e rest := by
  constructor
  · rintro ⟨before, part', after, e, whole, led, notDot, notUp, fails⟩
    cases before with
    | nil =>
      cases whole
      cases led
      exact .inl ⟨notDot, notUp, fails⟩
    | cons first before =>
      cases whole
      obtain ⟨e', into, later⟩ := bind_eq_some_iff.mp led
      exact .inr ⟨e', into, before, part', after, e, rfl, later, notDot, notUp, fails⟩
  · rintro (⟨notDot, notUp, fails⟩ | ⟨e, into, before, part', after, e', rfl, led, fails⟩)
    · exact ⟨[], part, rest, d, rfl, rfl, notDot, notUp, fails⟩
    · refine ⟨part :: before, part', after, e', rfl, ?_, fails⟩
      rw [foldlM_cons, into]
      exact led

/-- A walk fails exactly where a component is missing, or no directory and another follows. -/
theorem walk_none (d : Nat) : walk t d parts = none ↔ Broken t d parts := by
  induction parts generalizing d with
  | nil =>
    constructor
    · rintro ⟨⟩
    · rintro ⟨before, part, after, e, whole, -⟩
      cases before <;> cases whole
  | cons part rest ih =>
    rw [broken_cons]
    cases rest with
    | nil =>
      have done : ∀ e, ¬ Broken t e [] := by
        intro e broken
        have none := (ih e).mpr broken
        cases none
      rw [walk, arrive_none]
      constructor
      · rintro ⟨notDot, notUp, empty⟩
        exact .inl ⟨notDot, notUp, .inl empty⟩
      rintro (⟨notDot, notUp, empty | ⟨more, -⟩⟩ | ⟨e, -, broken⟩)
      · exact ⟨notDot, notUp, empty⟩
      · exact absurd rfl more
      · exact absurd broken (done e)
    | cons next rest =>
      rw [walk]
      cases into : enter t d part with
      | none =>
        have none := enter_none.mp into
        refine ⟨fun _ => .inl ⟨none.1, none.2.1, .inr ⟨by simp, none.2.2⟩⟩, fun _ => rfl⟩
      | some e =>
        rw [bind_some, ih e]
        constructor
        · intro broken
          exact .inr ⟨e, rfl, broken⟩
        rintro (⟨notDot, notUp, fails⟩ | ⟨e', same, broken⟩)
        · have none : enter t d part = none := by
            refine enter_none.mpr ⟨notDot, notUp, ?_⟩
            rcases fails with empty | ⟨-, files⟩
            · simp [empty]
            · exact files
          rw [into] at none
          cases none
        · cases same
          exact broken

end Failure

section Search

variable {t : Tree} {cuts : List (Name × Name)} {zero : List Char} {workdir : Nat} {name : Name}

theorem vfsSearchname_eq (some' : name ≠ []) (filled : t.files 0 ≠ []) :
    vfsSearchname t cuts zero workdir name =
      (pathOf t cuts zero workdir name).bind (resolve t) := by
  unfold vfsSearchname
  rw [if_neg some', if_neg filled]

theorem pathOf_absolute (absolute : name.head? = some '/') :
    pathOf t cuts zero workdir name = some name :=
  if_pos absolute

theorem pathOf_relative (relative : name.head? ≠ some '/')
    (split : token slash name = some (first, rest)) :
    pathOf t cuts zero workdir name = if vfsIspathcut first = true then
        match vfsGetpathcut cuts first with
        | some str => some (str ++ nextEntry zero rest)
        | none => some first
      else if first = dotdot then
        (t.path workdir).map fun d => getfullpath t d ++ nextEntry zero rest
      else some (getfullpath t workdir ++ name) := by
  unfold pathOf
  rw [if_neg relative, strtok_slash, split]

theorem token_of_components (whole : components name = first :: parts) :
    ∃ rest, token slash name = some (first, rest) ∧ components (rest.getD []) = parts := by
  have spec := token_spec slash name
  cases split : token slash name with
  | none =>
    rw [split] at spec
    exact absurd (whole.symm.trans spec) (by simp)
  | some found =>
    obtain ⟨first', rest⟩ := found
    rw [split] at spec
    have same := whole.symm.trans spec
    cases same
    exact ⟨rest, rfl, rfl⟩

theorem nextEntry_rest (split : token slash name = some (first, rest))
    (apart : ∀ c ∈ name, c ∉ zero) : nextEntry zero rest = rest.getD [] := by
  apply nextEntry_eq
  cases rest with
  | none => simp
  | some s =>
    intro c member
    exact apart c (token_rest split c member)

/-- `vfs_searchname` walks along the components, from the root, the working directory or where a
path cut leads, with room for 40 of them and of the working directory's path; behind `..` `strtok`
takes the rest whole where no character of it stands at address 0. An empty name is the root, an
empty root has nothing, and a relative path up from the root fails. -/
theorem searchname_walks {names : List Name} (placed : Placed t workdir names) :
    vfsSearchname t cuts zero workdir [] = some 0 ∧
    (name ≠ [] → t.files 0 = [] → vfsSearchname t cuts zero workdir name = none) ∧
    (t.files 0 ≠ [] → name.head? = some '/' → (components name).length ≤ 40 →
      vfsSearchname t cuts zero workdir name = walk t 0 (components name)) ∧
    (∀ first parts, t.files 0 ≠ [] → name.head? ≠ some '/' → components name = first :: parts →
      vfsIspathcut first = false → (first ≠ dotdot → names.length + (components name).length ≤ 40 →
          vfsSearchname t cuts zero workdir name = walk t workdir (components name)) ∧
        (first = dotdot → workdir ≠ 0 → (∀ c ∈ name, c ∉ zero) → names.length + parts.length ≤ 41 →
          vfsSearchname t cuts zero workdir name = walk t workdir (components name)) ∧
        (first = dotdot → workdir = 0 → vfsSearchname t cuts zero workdir name = none)) ∧
    (∀ first parts str, t.files 0 ≠ [] → name.head? ≠ some '/' →
      components name = first :: parts → vfsIspathcut first = true →
      vfsGetpathcut cuts first = some (str ++ ['/']) → (∀ c ∈ name, c ∉ zero) →
      (components str).length + parts.length ≤ 40 →
        vfsSearchname t cuts zero workdir name = walk t 0 (components str ++ parts)) ∧
    (∀ d parts, walk t d parts = none ↔ Broken t d parts) := by
  have nonempty : ∀ {first parts}, components name = first :: parts → name ≠ [] := by
    rintro first parts whole rfl
    cases whole
  refine ⟨rfl, ?_, ?_, ?_, ?_, fun d parts => walk_none d⟩
  · intro some' empty
    unfold vfsSearchname
    rw [if_neg some', if_pos empty]
  · intro filled absolute few
    have some' : name ≠ [] := by
      rintro rfl
      cases absolute
    rw [vfsSearchname_eq some' filled, pathOf_absolute absolute]
    exact resolve_eq few
  · intro first parts filled relative whole cut
    obtain ⟨rest, split, behind⟩ := token_of_components whole
    rw [vfsSearchname_eq (nonempty whole) filled, pathOf_relative relative split,
      if_neg (by simp [cut])]
    refine ⟨?_, ?_, ?_⟩
    · intro other few
      have joined := components_fullpath placed name
      rw [if_neg other, Option.bind_some, resolve_eq, joined, walk_placed placed]
      rw [joined, List.length_append]
      exact few
    · rintro rfl below apart few
      cases placed with
      | root => exact absurd rfl below
      | @child _ d above up path directory plain named inner last =>
        have joined := components_fullpath up (rest.getD [])
        rw [behind] at joined
        have go : enter t workdir dotdot = some d := by
          unfold enter parent
          rw [path]
          rfl
        rw [if_pos rfl, path, Option.map_some, Option.bind_some, nextEntry_rest split apart,
          resolve_eq, joined, walk_placed up, whole]
        · cases parts with
          | nil =>
            show some d = some (parent t workdir)
            unfold parent
            rw [path]
            rfl
          | cons part parts => exact (walk_cons go (by simp)).symm
        · rw [joined, List.length_append]
          rw [List.length_append, List.length_singleton] at few
          omega
    · rintro rfl rfl
      rw [if_pos rfl, (t.root_iff 0).mpr rfl]
      rfl
  · intro first parts str filled relative whole cut known apart few
    obtain ⟨rest, split, behind⟩ := token_of_components whole
    have joined : components (str ++ ['/'] ++ rest.getD []) = components str ++ parts := by
      unfold components at behind ⊢
      rw [List.append_assoc, List.singleton_append, pieces_append slash_slash, behind]
    rw [vfsSearchname_eq (nonempty whole) filled, pathOf_relative relative split, if_pos cut, known,
      Option.bind_some, nextEntry_rest split apart, resolve_eq, joined]
    rw [joined, List.length_append]
    exact few

/-- A directory `a` under the root with a file `B` in it. -/
def small : Tree where
  name
    | 1 => ['a']
    | 2 => ['B']
    | _ => []
  directory n := n == 0 || n == 1
  path
    | 0 => none
    | 2 => some 1
    | _ => some 0
  files
    | 0 => [1]
    | 1 => [2]
    | _ => []
  level
    | 0 => 0
    | 2 => 2
    | _ => 1
  root_name := rfl
  root_directory := rfl
  root_iff n := by
    match n with
    | 0 => simp
    | 1 => simp
    | 2 => simp
    | k + 3 => simp
  nearer n d := by
    match n with
    | 0 => simp
    | 1 =>
      rintro ⟨⟩
      exact Nat.one_pos
    | 2 =>
      rintro ⟨⟩
      exact Nat.one_lt_two
    | k + 3 =>
      rintro ⟨⟩
      exact Nat.one_pos

theorem small_placed : Placed small 1 [['a']] :=
  .child .root rfl rfl (by simp [small, slash]) (by simp [small]) rfl rfl

/-- From `/a`, the path `../A/b` leads to the file. -/
theorem searchname_walks_up :
    vfsSearchname small [] [] 1 ['.', '.', '/', 'A', '/', 'b'] = some 2 := by
  have clauses := @searchname_walks small [] [] 1 ['.', '.', '/', 'A', '/', 'b'] _ small_placed
  exact ((clauses.2.2.2.1 dotdot [['A'], ['b']] (by decide) (by decide) rfl rfl).2.1 rfl (by decide)
    (by simp) (by decide)).trans rfl

/-- With the path cut `c:` for `/a/` the path `c:/b` leads to the file, though the root has no `c:`;
and from the root `..` leads nowhere. -/
theorem plain_walk_differs :
    (vfsSearchname small [(['c', ':'], ['/', 'a', '/'])] [] 0 ['c', ':', '/', 'b'] = some 2 ∧
      walk small 0 (components ['c', ':', '/', 'b']) = none) ∧
    vfsSearchname small [] [] 0 dotdot = none ∧ walk small 0 (components dotdot) = some 0 := by
  exact ⟨⟨rfl, rfl⟩, rfl, rfl⟩

end Search

end IcsOs.Vfs.Paths
