/- GID: IcsOs/Console/VtScreen
   generality: I
   source: kernel/console/tty_vt.c, kernel/console/vt_color.c, kernel/console/dex_DDL.c
   digest: The escape-sequence interpreter of a screen terminal keeps to its screen. -/

import Mathlib.Logic.Function.Iterate
import Mathlib.Tactic.SplitIfs
import IcsOs.Lib.Runs

set_option autoImplicit false

namespace IcsOs.Console.VtScreen

open Lib.Runs

abbrev Byte := UInt8

/-! ### Colours and parameters -/

def vtPal16 : List (Int × Int × Int) := [
  (0, 0, 0), (0, 0, 170), (0, 170, 0), (0, 170, 170),
  (170, 0, 0), (170, 0, 170), (170, 85, 0), (170, 170, 170),
  (85, 85, 85), (85, 85, 255), (85, 255, 85), (85, 255, 255),
  (255, 85, 85), (255, 85, 255), (255, 255, 85), (255, 255, 255)]

def vtAnsi2vga : List Nat := [0, 4, 2, 6, 1, 5, 3, 7]

/-- The first of the nearest palette entries. -/
def vtNearest16 (r g b : Int) : Nat :=
  (vtPal16.zipIdx.foldl (fun (best : Nat × Int) (entry : (Int × Int × Int) × Nat) =>
    let d := (r - entry.1.1) * (r - entry.1.1) + (g - entry.1.2.1) * (g - entry.1.2.1) +
      (b - entry.1.2.2) * (b - entry.1.2.2)
    if d < best.2 then (entry.2, d) else best) (0, 0x7fffffff)).1

def vtColorRgb (r g b : Nat) : Nat := vtNearest16 (min r 255) (min g 255) (min b 255)

def vtColor256 (idx : Nat) : Nat :=
  let idx := min idx 255
  if idx < 16 then
    if idx < 8 then vtAnsi2vga.getD idx 0 else vtAnsi2vga.getD (idx - 8) 0 + 8
  else if idx < 232 then
    let m := idx - 16
    let level (c : Nat) : Int := if c = 0 then 0 else c * 40 + 55
    vtNearest16 (level (m / 36)) (level (m / 6 % 6)) (level (m % 6))
  else
    let v : Int := (idx - 232) * 10 + 8
    vtNearest16 v v v

/-- One parameter of a rendition that takes no others. -/
def sgrOne (sgr p : Nat) : Nat :=
  let fg := sgr &&& 0x0F
  let bg := sgr >>> 4 &&& 0x0F
  match p with
  | 0 => 0x07
  | 1 => sgr &&& 0xF0 ||| 0x0F
  | 4 => sgr ||| 0x80
  | 7 => sgr &&& 0x80 ||| fg <<< 4 ||| bg
  | 21 | 22 => sgr &&& 0xF0 ||| sgr &&& 0x07
  | 24 => sgr &&& 0xFFFFFF7F
  | 27 => sgr &&& 0x80 ||| fg ||| bg <<< 4
  | 39 => sgr &&& 0xF0 ||| 0x07
  | 49 => sgr &&& 0x0F
  | p =>
    if 30 ≤ p ∧ p ≤ 37 then sgr &&& 0xF0 ||| vtAnsi2vga.getD (p - 30) 0
    else if 40 ≤ p ∧ p ≤ 47 then sgr &&& 0x0F ||| vtAnsi2vga.getD (p - 40) 0 <<< 4
    else if 90 ≤ p ∧ p ≤ 97 then sgr &&& 0xF0 ||| (vtAnsi2vga.getD (p - 90) 0 + 8)
    else if 100 ≤ p ∧ p ≤ 107 then sgr &&& 0x0F ||| (vtAnsi2vga.getD (p - 100) 0 + 8) <<< 4
    else sgr

def vtSgrApply (sgr : Nat) : List Nat → Nat
  | [] => sgr
  | 38 :: 5 :: n :: rest => vtSgrApply (sgr &&& 0xF0 ||| vtColor256 n) rest
  | 38 :: 2 :: r :: g :: b :: rest => vtSgrApply (sgr &&& 0xF0 ||| vtColorRgb r g b) rest
  | 48 :: 5 :: n :: rest => vtSgrApply (sgr &&& 0x0F ||| vtColor256 n <<< 4) rest
  | 48 :: 2 :: r :: g :: b :: rest => vtSgrApply (sgr &&& 0x0F ||| vtColorRgb r g b <<< 4) rest
  | p :: rest => vtSgrApply (sgrOne sgr p) rest

/-- `vt_parse_params` from a value on; none for a byte that is no parameter. -/
def parseFrom (max : Nat) : Option Nat → List Nat → List Byte → Option (List Nat)
  | cur, vals, [] => some (if vals.length < max then vals ++ [cur.getD 0] else vals)
  | cur, vals, c :: rest =>
    if max ≤ vals.length then some vals
    else if 0x30 ≤ c ∧ c ≤ 0x39 then
      let value := cur.getD 0
      let value := if value < 1000000 then min (value * 10 + (c.toNat - 0x30)) 1000000 else value
      parseFrom max (some value) vals rest
    else if c = 0x3B then parseFrom max none (vals ++ [cur.getD 0]) rest
    else none

def vtParseParams (s : List Byte) (max : Nat) : Option (List Nat) := parseFrom max none [] s

/-! ### Screen memory -/

/-- Cells of the hardware and in memory, where `buf_ptr` points, and whether an access was outside.
-/
structure Ddl where
  hdw : Int → Byte
  mem : Int → Byte
  inMemory : Bool
  bufmode : Bool
  active : Bool
  outside : Bool

def Ddl.screen (d : Ddl) : Int → Byte := if d.inMemory then d.mem else d.hdw

def Ddl.setScreen (d : Ddl) (cells : Int → Byte) : Ddl :=
  if d.inMemory then { d with mem := cells } else { d with hdw := cells }

/-- An access to `len` bytes from `start` on, of the 80 * 25 * 2 there are. -/
def Ddl.touch (d : Ddl) (start len : Int) : Ddl :=
  { d with outside := d.outside || !decide (0 ≤ start ∧ 0 ≤ len ∧ start + len ≤ 4000) }

def Ddl.store (d : Ddl) (a : Int) (b : Byte) : Ddl :=
  (d.touch a 1).setScreen fun i => if i = a then b else d.screen i

def Ddl.memmove (d : Ddl) (dst src len : Int) : Ddl :=
  ((d.touch dst len).touch src len).setScreen fun i =>
    if dst ≤ i ∧ i < dst + len then d.screen (src + (i - dst)) else d.screen i

def ddSwaptohardware (d : Ddl) : Ddl :=
  if d.active then { d with hdw := d.mem, inMemory := false, bufmode := false } else d

def vtRefresh (d : Ddl) : Ddl := if d.bufmode then ddSwaptohardware d else d

/-- `vt_clear_buffer` and `vt_screen_clear`. -/
def vtScreenClear (d : Ddl) (attr : Nat) : Ddl :=
  (d.touch 0 4000).setScreen fun i =>
    if 0 ≤ i ∧ i < 4000 then if i % 2 = 1 then UInt8.ofNat attr else 0x20 else d.screen i

def vtPutcell (d : Ddl) (x y : Int) (c : Byte) (attr : Nat) : Ddl :=
  if x < 0 ∨ 80 ≤ x ∨ y < 0 ∨ 25 ≤ y then d
  else (d.store ((y * 80 + x) * 2) c).store ((y * 80 + x) * 2 + 1) (UInt8.ofNat attr)

/-- The integers from `a` to `b`. -/
def upTo (a b : Int) : List Int := (List.range (b - a + 1).toNat).map fun (i : Nat) => a + i

def vtClearRect (d : Ddl) (x1 y1 x2 y2 : Int) (attr : Nat) : Ddl :=
  let x1 := max x1 0
  let y1 := max y1 0
  let x2 := min x2 79
  let y2 := min y2 24
  if x2 < x1 ∨ y2 < y1 then d
  else (upTo y1 y2).foldl (fun d y => (upTo x1 x2).foldl (fun d x => vtPutcell d x y 0x20 attr) d) d

def vtScrollUp (d : Ddl) (top bot : Int) (attr : Nat) : Ddl :=
  let rows := bot - top + 1
  let top := max top 0
  let bot := min bot 24
  if bot < top then d
  else vtRefresh (vtClearRect
    (d.memmove (top * 80 * 2) ((top + 1) * 80 * 2) ((rows - 1) * 80 * 2)) 0 bot 79 bot attr)

def vtScrollDown (d : Ddl) (top bot : Int) (attr : Nat) : Ddl :=
  let rows := bot - top + 1
  let top := max top 0
  let bot := min bot 24
  if bot < top then d
  else vtRefresh (vtClearRect
    (d.memmove ((top + 1) * 80 * 2) (top * 80 * 2) ((rows - 1) * 80 * 2)) 0 top 79 top attr)

/-! ### The terminal -/

inductive Phase
  | ground
  | esc
  | csi
  | osc
  | oscEsc
  deriving DecidableEq

/-- `vt_state_t` with cursor and screen; the parameter buffer by its `csi_n` bytes. -/
structure Term where
  phase : Phase
  csi : List Byte
  sgr : Nat
  savx : Int
  savy : Int
  savsgr : Nat
  stbTop : Int
  stbBot : Int
  alt : Bool
  curhidden : Bool
  curx : Int
  cury : Int
  ddl : Ddl

def Term.moveTo (t : Term) (x y : Int) : Term := { t with curx := x, cury := y }

def Term.draw (t : Term) (d : Ddl) : Term := { t with ddl := d }

def Term.enter (t : Term) (p : Phase) : Term := { t with phase := p }

/-- `vt_cursor_sync`, which clamps the cursor first. -/
def vtCursorSync (t : Term) : Term := t.moveTo (min (max t.curx 0) 79) (min (max t.cury 0) 24)

def vtIndex (t : Term) : Term :=
  vtCursorSync <| if t.cury = t.stbBot then t.draw (vtScrollUp t.ddl t.stbTop t.stbBot 0x07)
    else if t.cury < 24 then t.moveTo t.curx (t.cury + 1)
    else t

def vtReverseIndex (t : Term) : Term :=
  vtCursorSync <| if t.cury = t.stbTop then t.draw (vtScrollDown t.ddl t.stbTop t.stbBot 0x07)
    else if 0 < t.cury then t.moveTo t.curx (t.cury - 1)
    else t

def vtPutchar (t : Term) (c : Byte) (attr : Nat) : Term :=
  let wrap := 80 ≤ t.curx
  let x := if wrap then 0 else t.curx
  let t := if wrap then vtIndex t else t
  let t := t.draw (vtPutcell t.ddl x t.cury c attr)
  vtCursorSync (t.moveTo (if 80 ≤ x + 1 then 0 else x + 1) t.cury)

/-- The primary screen, kept in memory, becomes the screen again. -/
def restoreScreen (t : Term) : Ddl := (t.ddl.touch 0 4000).setScreen t.ddl.mem

def vtRis (t : Term) : Term :=
  let d := if t.alt then restoreScreen t else t.ddl
  let d := vtScreenClear d 0x07
  let t := vtCursorSync { t with
    phase := .ground, sgr := 0x07, stbTop := 0, stbBot := 24, savx := 0, savy := 0, savsgr := 0x07,
    alt := false, ddl := d, curx := 0, cury := 0 }
  t.draw (vtRefresh t.ddl)

/-- The screen is kept in memory, and cleared if asked for. -/
def keepScreen (d : Ddl) (clear : Bool) : Ddl :=
  let d := vtRefresh d
  let d := { d.touch 0 4000 with mem := d.screen }
  vtRefresh (if clear then vtScreenClear d 0x07 else d)

/-- The cursor and the rendition are saved. -/
def Term.save (t : Term) : Term := { t with savx := t.curx, savy := t.cury, savsgr := t.sgr }

def vtAltEnter (t : Term) (savecursor clear : Bool) : Term :=
  if t.alt then t
  else { (if savecursor then t.save else t) with alt := true, ddl := keepScreen t.ddl clear }

def vtAltExit (t : Term) (restorecursor : Bool) : Term :=
  if t.alt then
    let t := { t with alt := false, ddl := restoreScreen t }
    let t := if restorecursor then { t with curx := t.savx, cury := t.savy, sgr := t.savsgr } else t
    let t := vtCursorSync t
    t.draw (vtRefresh t.ddl)
  else t

/-- The control sequences by the byte that ends them. -/
inductive Command
  | cuu | cud | cuf | cub | cnl | cpl | cha | vpa | cup | ed | el | ich | dch | ech | il | dl
  | su | sd | sgr | decstbm | save | restore
  | mode (set : Bool)
  | other

/-- The switch of `vt_csi_dispatch`; the reply to `n` changes nothing. -/
def command : Char → Command
  | 'A' => .cuu
  | 'B' | 'e' => .cud
  | 'C' => .cuf
  | 'D' => .cub
  | 'E' => .cnl
  | 'F' => .cpl
  | 'G' | '\x60' => .cha
  | 'd' => .vpa
  | 'H' | 'f' => .cup
  | 'J' => .ed
  | 'K' => .el
  | '@' => .ich
  | 'P' => .dch
  | 'X' => .ech
  | 'L' => .il
  | 'M' => .dl
  | 'S' => .su
  | 'T' => .sd
  | 'm' => .sgr
  | 'r' => .decstbm
  | 's' => .save
  | 'u' => .restore
  | 'h' => .mode true
  | 'l' => .mode false
  | _ => .other

/-- A count, for which zero stands for one. -/
def count (p : Nat) : Int := if p = 0 then 1 else p

/-- Erasing in the display and in the line. -/
def eraseDisplay (t : Term) (p : Nat) : Ddl :=
  match p with
  | 0 => vtClearRect (vtClearRect t.ddl t.curx t.cury 79 t.cury t.sgr) 0 (t.cury + 1) 79 24 t.sgr
  | 1 => vtClearRect (vtClearRect t.ddl 0 0 79 (t.cury - 1) t.sgr) 0 t.cury t.curx t.cury t.sgr
  | 2 => vtRefresh (vtScreenClear t.ddl t.sgr)
  | _ => t.ddl

def eraseLine (t : Term) (p : Nat) : Ddl :=
  match p with
  | 0 => vtClearRect t.ddl t.curx t.cury 79 t.cury t.sgr
  | 1 => vtClearRect t.ddl 0 t.cury t.curx t.cury t.sgr
  | 2 => vtClearRect t.ddl 0 t.cury 79 t.cury t.sgr
  | _ => t.ddl

def insertChars (t : Term) (p : Nat) : Ddl :=
  let count := min (count p) (80 - t.curx)
  let dst := (t.cury * 80 + t.curx) * 2
  vtRefresh (vtClearRect (t.ddl.memmove (dst + count * 2) dst ((80 - t.curx - count) * 2))
    t.curx t.cury (t.curx + count - 1) t.cury t.sgr)

def deleteChars (t : Term) (p : Nat) : Ddl :=
  let count := min (count p) (80 - t.curx)
  let dst := (t.cury * 80 + t.curx) * 2
  vtRefresh (vtClearRect (t.ddl.memmove dst (dst + count * 2) ((80 - t.curx - count) * 2))
    (80 - count) t.cury 79 t.cury t.sgr)

def insertLines (t : Term) (p : Nat) : Ddl :=
  if t.cury < t.stbTop ∨ t.stbBot < t.cury then t.ddl
  else
    let count := min (count p) (t.stbBot - t.cury + 1)
    vtRefresh (vtClearRect (t.ddl.memmove ((t.cury + count) * 80 * 2) (t.cury * 80 * 2)
        ((t.stbBot - t.cury + 1 - count) * 80 * 2))
      0 t.cury 79 (t.cury + count - 1) 0x07)

def deleteLines (t : Term) (p : Nat) : Ddl :=
  if t.cury < t.stbTop ∨ t.stbBot < t.cury then t.ddl
  else
    let count := min (count p) (t.stbBot - t.cury + 1)
    vtRefresh (vtClearRect (t.ddl.memmove (t.cury * 80 * 2) ((t.cury + count) * 80 * 2)
        ((t.stbBot - t.cury + 1 - count) * 80 * 2))
      0 (t.stbBot - count + 1) 79 t.stbBot 0x07)

/-- A scroll command scrolls no more than the region has rows. -/
def scrolls (t : Term) (p : Nat) : Nat := (min (count p) (t.stbBot - t.stbTop + 1)).toNat

/-- The last row of a region; zero stands for that of the screen. -/
def lastRow (p : Nat) : Int := if p = 0 then 25 else p

/-- `DECSTBM`: the region, if it is one, and the cursor in the corner. -/
def setRegion (t : Term) (p0 p1 : Nat) : Term :=
  if count p0 < 1 ∨ 25 < lastRow p1 ∨ lastRow p1 ≤ count p0 then t
  else vtCursorSync { t with
    stbTop := count p0 - 1, stbBot := lastRow p1 - 1, curx := 0, cury := 0 }

/-- The private modes. -/
def setMode (t : Term) (p : Nat) (set : Bool) : Term :=
  match p, set with
  | 25, set => { t with curhidden := !set }
  | 47, true => vtAltEnter t false true
  | 1047, true => vtAltEnter t false false
  | 47, false | 1047, false => vtAltExit t false
  | 1048, true => { t with savx := t.curx, savy := t.cury }
  | 1048, false => vtCursorSync (t.moveTo t.savx t.savy)
  | 1049, true => vtAltEnter t true true
  | 1049, false => vtAltExit t true
  | _, _ => t

def perform (t : Term) (isPrivate : Bool) (params : List Byte) (p0 p1 : Nat) : Command → Term
  | .cuu => vtCursorSync (t.moveTo t.curx (t.cury - count p0))
  | .cud => vtCursorSync (t.moveTo t.curx (t.cury + count p0))
  | .cuf => vtCursorSync (t.moveTo (t.curx + count p0) t.cury)
  | .cub => vtCursorSync (t.moveTo (t.curx - count p0) t.cury)
  | .cnl => vtCursorSync (t.moveTo 0 (t.cury + count p0))
  | .cpl => vtCursorSync (t.moveTo 0 (t.cury - count p0))
  | .cha => vtCursorSync (t.moveTo (count p0 - 1) t.cury)
  | .vpa => vtCursorSync (t.moveTo t.curx (count p0 - 1))
  | .cup => vtCursorSync (t.moveTo (count p1 - 1) (count p0 - 1))
  | .ed => t.draw (eraseDisplay t p0)
  | .el => t.draw (eraseLine t p0)
  | .ich => t.draw (insertChars t p0)
  | .dch => t.draw (deleteChars t p0)
  | .ech => t.draw (vtClearRect t.ddl t.curx t.cury (t.curx + count p0 - 1) t.cury t.sgr)
  | .il => t.draw (insertLines t p0)
  | .dl => t.draw (deleteLines t p0)
  | .su => t.draw ((fun d => vtScrollUp d t.stbTop t.stbBot 0x07)^[scrolls t p0] t.ddl)
  | .sd => t.draw ((fun d => vtScrollDown d t.stbTop t.stbBot 0x07)^[scrolls t p0] t.ddl)
  | .sgr =>
    match vtParseParams params 32 with
    | some vals => { t with sgr := vtSgrApply t.sgr vals }
    | none => t
  | .decstbm => setRegion t p0 p1
  | .save => { t with savx := t.curx, savy := t.cury }
  | .restore => vtCursorSync (t.moveTo t.savx t.savy)
  | .mode set => if isPrivate then setMode t p0 set else t
  | .other => t

def vtCsiDispatch (t : Term) (final : Char) : Term :=
  let isPrivate : Bool := t.csi.head? = some 0x3F
  let params := if isPrivate then t.csi.tail else t.csi
  let vals := (vtParseParams params 16).getD []
  perform t isPrivate params (vals.getD 0 0) (vals.getD 1 0) (command final)

/-- The column a tab moves to. -/
def tab (x : Int) : Int := if x < 80 ∧ x % 8 ≠ 0 then tab (x + 1) else x
termination_by (80 - x).toNat

/-- A byte after ESC. -/
def feedEsc (t : Term) (c : Int) : Term :=
  if c = 0x5B then { t with phase := .csi, csi := [] }
  else if c = 0x5D then t.enter .osc
  else if c = 0x37 then t.save.enter .ground
  else if c = 0x38 then
    vtCursorSync { t with curx := t.savx, cury := t.savy, sgr := t.savsgr, phase := .ground }
  else if c = 0x4D then (vtReverseIndex t).enter .ground
  else if c = 0x63 then vtRis t
  else if c ≠ 0x1B then t.enter .ground
  else t

/-- A byte inside a control sequence. -/
def feedCsi (t : Term) (c : Int) : Term :=
  if c = 0x1B then t.enter .esc
  else if 0x40 ≤ c ∧ c ≤ 0x7E then (vtCsiDispatch t (Char.ofNat c.toNat)).enter .ground
  else if 0x20 ≤ c ∧ c ≤ 0x3F then
    if t.csi.length < 47 then { t with csi := t.csi ++ [UInt8.ofNat c.toNat] } else t
  else t.enter .ground

def feedGround (t : Term) (c : Int) : Term :=
  if c = 0x1B then t.enter .esc
  else if c = 10 then vtIndex t
  else if c = 13 then vtCursorSync (t.moveTo 0 t.cury)
  else if c = 8 then vtCursorSync (t.moveTo (if 0 < t.curx then t.curx - 1 else t.curx) t.cury)
  else if c = 9 then vtCursorSync (t.moveTo (tab t.curx) t.cury)
  else if c < 0x20 then t
  else vtPutchar t (UInt8.ofInt c) t.sgr

/-- `vt_feed` on a screen terminal. -/
def vtFeed (t : Term) (c : Int) : Term :=
  match t.phase with
  | .osc => if c = 0x07 then t.enter .ground else if c = 0x1B then t.enter .oscEsc else t
  | .oscEsc => if c ≠ 0x1B then t.enter .ground else t
  | .esc => feedEsc t c
  | .csi => feedCsi t c
  | .ground => feedGround t c

/-- A terminal after `vt_init`, its cursor on the screen. -/
structure Fresh (t : Term) : Prop where
  phase : t.phase = .ground
  csi : t.csi = []
  sgr : t.sgr = 0x07
  saved : t.savx = 0 ∧ t.savy = 0 ∧ t.savsgr = 0
  region : t.stbTop = 0 ∧ t.stbBot = 24
  modes : t.alt = false ∧ t.curhidden = false
  cursor : 0 ≤ t.curx ∧ t.curx < 80 ∧ 0 ≤ t.cury ∧ t.cury < 25
  clean : t.ddl.outside = false

/-- A terminal fed one byte after another. -/
def interpreter : System Term Int where
  start := Fresh
  step t c t' := t' = vtFeed t c

/-- The scroll region, the parameter buffer and the screen memory are kept to. -/
structure Steady (t : Term) : Prop where
  region : 0 ≤ t.stbTop ∧ t.stbTop < t.stbBot ∧ t.stbBot ≤ 24
  csi : t.csi.length < 48
  clean : t.ddl.outside = false

structure Inside (t : Term) : Prop extends Steady t where
  cursor : 0 ≤ t.curx ∧ t.curx < 80 ∧ 0 ≤ t.cury ∧ t.cury < 25

section Drawing

variable {d : Ddl}

@[simp] theorem setScreen_outside (d : Ddl) (cells : Int → Byte) :
    (d.setScreen cells).outside = d.outside := by
  unfold Ddl.setScreen
  split_ifs <;> rfl

@[simp] theorem vtRefresh_outside (d : Ddl) : (vtRefresh d).outside = d.outside := by
  unfold vtRefresh ddSwaptohardware
  split_ifs <;> rfl

theorem touch_outside {start len : Int} (low : 0 ≤ start) (positive : 0 ≤ len)
    (high : start + len ≤ 4000) : (d.touch start len).outside = d.outside := by
  unfold Ddl.touch
  rw [decide_eq_true ⟨low, positive, high⟩, Bool.not_true, Bool.or_false]

theorem store_outside {a : Int} {b : Byte} (low : 0 ≤ a) (high : a < 4000) :
    (d.store a b).outside = d.outside := by
  unfold Ddl.store
  rw [setScreen_outside, touch_outside low (by omega) (by omega)]

theorem memmove_outside {dst src len : Int} (source : 0 ≤ src) (into : 0 ≤ dst) (positive : 0 ≤ len)
    (fromEnd : src + len ≤ 4000) (intoEnd : dst + len ≤ 4000) :
    (d.memmove dst src len).outside = d.outside := by
  unfold Ddl.memmove
  rw [setScreen_outside, touch_outside source positive fromEnd, touch_outside into positive intoEnd]

@[simp] theorem vtScreenClear_outside (d : Ddl) (attr : Nat) :
    (vtScreenClear d attr).outside = d.outside := by
  unfold vtScreenClear
  rw [setScreen_outside, touch_outside (by omega) (by omega) (by omega)]

/-- A cell is written only if it is on the screen. -/
@[simp] theorem vtPutcell_outside (d : Ddl) (x y : Int) (c : Byte) (attr : Nat) :
    (vtPutcell d x y c attr).outside = d.outside := by
  unfold vtPutcell
  split_ifs with off
  · rfl
  · rw [store_outside (by omega) (by omega), store_outside (by omega) (by omega)]

theorem foldl_outside {α : Type} {f : Ddl → α → Ddl} (same : ∀ d a, (f d a).outside = d.outside)
    (l : List α) (d : Ddl) : (l.foldl f d).outside = d.outside := by
  induction l generalizing d with
  | nil => rfl
  | cons a l ih => exact (ih (f d a)).trans (same d a)

@[simp] theorem vtClearRect_outside (d : Ddl) (x1 y1 x2 y2 : Int) (attr : Nat) :
    (vtClearRect d x1 y1 x2 y2 attr).outside = d.outside := by
  unfold vtClearRect
  dsimp only
  split_ifs with empty
  · rfl
  · exact foldl_outside (fun d y => foldl_outside (fun d x => vtPutcell_outside d x y _ _) _ d) _ d

variable {top bot : Int}

theorem vtScrollUp_outside (low : 0 ≤ top) (order : top < bot) (high : bot ≤ 24) (attr : Nat) :
    (vtScrollUp d top bot attr).outside = d.outside := by
  unfold vtScrollUp
  dsimp only
  split_ifs with empty
  · rfl
  · rw [vtRefresh_outside, vtClearRect_outside,
      memmove_outside (by omega) (by omega) (by omega) (by omega) (by omega)]

theorem vtScrollDown_outside (low : 0 ≤ top) (order : top < bot) (high : bot ≤ 24) (attr : Nat) :
    (vtScrollDown d top bot attr).outside = d.outside := by
  unfold vtScrollDown
  dsimp only
  split_ifs with empty
  · rfl
  · rw [vtRefresh_outside, vtClearRect_outside,
      memmove_outside (by omega) (by omega) (by omega) (by omega) (by omega)]

theorem iterate_outside {f : Ddl → Ddl} (same : ∀ d, (f d).outside = d.outside) (n : Nat)
    (d : Ddl) : (f^[n] d).outside = d.outside := by
  induction n generalizing d with
  | zero => rfl
  | succ n ih => exact (ih (f d)).trans (same d)

end Drawing

section

variable {t : Term}

theorem count_pos (p : Nat) : 1 ≤ count p := by
  unfold count
  split_ifs <;> omega

theorem eraseDisplay_outside (t : Term) (p : Nat) : (eraseDisplay t p).outside = t.ddl.outside := by
  unfold eraseDisplay
  split <;> simp

theorem eraseLine_outside (t : Term) (p : Nat) : (eraseLine t p).outside = t.ddl.outside := by
  unfold eraseLine
  split <;> simp

theorem Inside.insertChars (inside : Inside t) (p : Nat) :
    (insertChars t p).outside = t.ddl.outside := by
  have positive := count_pos p
  obtain ⟨left, right, top, bottom⟩ := inside.cursor
  unfold VtScreen.insertChars
  rw [vtRefresh_outside, vtClearRect_outside,
    memmove_outside (by omega) (by omega) (by omega) (by omega) (by omega)]

theorem Inside.deleteChars (inside : Inside t) (p : Nat) :
    (deleteChars t p).outside = t.ddl.outside := by
  have positive := count_pos p
  obtain ⟨left, right, top, bottom⟩ := inside.cursor
  unfold VtScreen.deleteChars
  rw [vtRefresh_outside, vtClearRect_outside,
    memmove_outside (by omega) (by omega) (by omega) (by omega) (by omega)]

theorem Inside.insertLines (inside : Inside t) (p : Nat) :
    (insertLines t p).outside = t.ddl.outside := by
  have positive := count_pos p
  obtain ⟨left, right, top, bottom⟩ := inside.cursor
  obtain ⟨low, order, high⟩ := inside.region
  unfold VtScreen.insertLines
  split_ifs with off
  · rfl
  · rw [vtRefresh_outside, vtClearRect_outside,
      memmove_outside (by omega) (by omega) (by omega) (by omega) (by omega)]

theorem Inside.deleteLines (inside : Inside t) (p : Nat) :
    (deleteLines t p).outside = t.ddl.outside := by
  have positive := count_pos p
  obtain ⟨left, right, top, bottom⟩ := inside.cursor
  obtain ⟨low, order, high⟩ := inside.region
  unfold VtScreen.deleteLines
  split_ifs with off
  · rfl
  · rw [vtRefresh_outside, vtClearRect_outside,
      memmove_outside (by omega) (by omega) (by omega) (by omega) (by omega)]

theorem Steady.moveTo (steady : Steady t) (x y : Int) : Steady (t.moveTo x y) :=
  { steady with }

theorem Steady.draw (steady : Steady t) {d : Ddl} (same : d.outside = t.ddl.outside) :
    Steady (t.draw d) :=
  { steady with clean := same.trans steady.clean }

/-- Wherever the cursor was sent, it is clamped. -/
theorem Steady.sync (steady : Steady t) : Inside (vtCursorSync t) := by
  refine ⟨steady.moveTo _ _, ?_⟩
  unfold vtCursorSync Term.moveTo
  dsimp only
  omega

section

variable (inside : Inside t)
include inside

theorem Inside.draw {d : Ddl} (same : d.outside = t.ddl.outside) : Inside (t.draw d) :=
  ⟨inside.toSteady.draw same, inside.cursor⟩

theorem Inside.enter (p : Phase) : Inside (t.enter p) :=
  ⟨{ inside with }, inside.cursor⟩

theorem Inside.goTo (x y : Int) : Inside (vtCursorSync (t.moveTo x y)) :=
  (inside.toSteady.moveTo x y).sync

theorem Inside.index : Inside (vtIndex t) := by
  obtain ⟨low, order, high⟩ := inside.region
  refine Steady.sync ?_
  split_ifs with bottom
  · exact inside.toSteady.draw (vtScrollUp_outside low order high _)
  · exact inside.toSteady.moveTo _ _
  · exact inside.toSteady

theorem Inside.reverseIndex : Inside (vtReverseIndex t) := by
  obtain ⟨low, order, high⟩ := inside.region
  refine Steady.sync ?_
  split_ifs with top
  · exact inside.toSteady.draw (vtScrollDown_outside low order high _)
  · exact inside.toSteady.moveTo _ _
  · exact inside.toSteady

theorem Inside.putchar (c : Byte) (attr : Nat) : Inside (vtPutchar t c attr) := by
  have wrapped : Inside (if 80 ≤ t.curx then vtIndex t else t) := by
    split_ifs
    · exact inside.index
    · exact inside
  unfold vtPutchar
  exact ((wrapped.toSteady.draw (vtPutcell_outside _ _ _ _ _)).moveTo _ _).sync

end

theorem restoreScreen_outside (t : Term) : (restoreScreen t).outside = t.ddl.outside := by
  unfold restoreScreen
  rw [setScreen_outside, touch_outside (by omega) (by omega) (by omega)]

theorem Inside.ris (inside : Inside t) : Inside (vtRis t) := by
  unfold vtRis
  refine Inside.draw (Steady.sync ⟨?_, ?_, ?_⟩) (vtRefresh_outside _)
  · change (0 : Int) ≤ 0 ∧ (0 : Int) < 24 ∧ (24 : Int) ≤ 24
    decide
  · exact inside.csi
  dsimp only
  rw [vtScreenClear_outside]
  split_ifs
  · exact (restoreScreen_outside t).trans inside.clean
  · exact inside.clean

theorem keepScreen_outside (d : Ddl) (clear : Bool) :
    (keepScreen d clear).outside = d.outside := by
  have touched : ((vtRefresh d).touch 0 4000).outside = d.outside := by
    rw [touch_outside (by omega) (by omega) (by omega), vtRefresh_outside]
  unfold keepScreen
  rw [vtRefresh_outside]
  split_ifs
  · exact (vtScreenClear_outside _ _).trans touched
  · exact touched

section

variable (inside : Inside t)
include inside

theorem Inside.save : Inside t.save :=
  ⟨{ inside with }, inside.cursor⟩

theorem Inside.altEnter (savecursor clear : Bool) : Inside (vtAltEnter t savecursor clear) := by
  have saved : Inside (if savecursor then t.save else t) := by
    split_ifs
    · exact inside.save
    · exact inside
  unfold vtAltEnter
  by_cases already : t.alt = true
  · rw [if_pos already]
    exact inside
  · rw [if_neg already]
    exact ⟨{ saved with clean := (keepScreen_outside _ _).trans inside.clean }, saved.cursor⟩

theorem Inside.altExit (restorecursor : Bool) : Inside (vtAltExit t restorecursor) := by
  have clean := (restoreScreen_outside t).trans inside.clean
  unfold vtAltExit
  by_cases entered : t.alt = true
  · rw [if_pos entered]
    refine Inside.draw (Steady.sync ?_) (vtRefresh_outside _)
    split_ifs
    · exact { inside with clean := clean }
    · exact { inside with clean := clean }
  · rw [if_neg entered]
    exact inside

theorem Inside.setRegion (p0 p1 : Nat) : Inside (setRegion t p0 p1) := by
  unfold VtScreen.setRegion
  split_ifs with bad
  · exact inside
  · refine Steady.sync { inside with region := ?_ }
    dsimp only
    omega

theorem Inside.setMode (p : Nat) (set : Bool) : Inside (setMode t p set) := by
  have same : ∀ {hidden : Bool} {x y : Int},
      Inside { t with curhidden := hidden, savx := x, savy := y } :=
    ⟨{ inside with }, inside.cursor⟩
  unfold VtScreen.setMode
  split
  · exact same
  · exact inside.altEnter _ _
  · exact inside.altEnter _ _
  · exact inside.altExit _
  · exact inside.altExit _
  · exact same
  · exact inside.goTo _ _
  · exact inside.altEnter _ _
  · exact inside.altExit _
  · exact inside

theorem Inside.perform (isPrivate : Bool) (params : List Byte) (p0 p1 : Nat) (cmd : Command) :
    Inside (perform t isPrivate params p0 p1 cmd) := by
  obtain ⟨low, order, high⟩ := inside.region
  cases cmd with
  | cuu => exact inside.goTo _ _
  | cud => exact inside.goTo _ _
  | cuf => exact inside.goTo _ _
  | cub => exact inside.goTo _ _
  | cnl => exact inside.goTo _ _
  | cpl => exact inside.goTo _ _
  | cha => exact inside.goTo _ _
  | vpa => exact inside.goTo _ _
  | cup => exact inside.goTo _ _
  | ed => exact inside.draw (eraseDisplay_outside t p0)
  | el => exact inside.draw (eraseLine_outside t p0)
  | ich => exact inside.draw (inside.insertChars p0)
  | dch => exact inside.draw (inside.deleteChars p0)
  | ech => exact inside.draw (vtClearRect_outside _ _ _ _ _ _)
  | il => exact inside.draw (inside.insertLines p0)
  | dl => exact inside.draw (inside.deleteLines p0)
  | su => exact inside.draw (iterate_outside (fun _ => vtScrollUp_outside low order high _) _ _)
  | sd => exact inside.draw (iterate_outside (fun _ => vtScrollDown_outside low order high _) _ _)
  | sgr =>
    unfold VtScreen.perform
    dsimp only
    split
    · exact ⟨{ inside with }, inside.cursor⟩
    · exact inside
  | decstbm => exact inside.setRegion p0 p1
  | save => exact ⟨{ inside with }, inside.cursor⟩
  | restore => exact inside.goTo _ _
  | mode set =>
    unfold VtScreen.perform
    split_ifs
    · exact inside.setMode p0 set
    · exact inside
  | other => exact inside

end

theorem Inside.feedEsc (inside : Inside t) (c : Int) : Inside (feedEsc t c) := by
  unfold VtScreen.feedEsc
  split_ifs
  · exact ⟨{ inside with csi := Nat.zero_lt_succ 47 }, inside.cursor⟩
  · exact inside.enter _
  · exact inside.save.enter _
  · exact Steady.sync { inside with }
  · exact inside.reverseIndex.enter _
  · exact inside.ris
  · exact inside.enter _
  · exact inside

theorem Inside.feedCsi (inside : Inside t) (c : Int) : Inside (feedCsi t c) := by
  unfold VtScreen.feedCsi
  split_ifs with _ _ _ room
  · exact inside.enter _
  · exact (inside.perform _ _ _ _ _).enter _
  · refine ⟨{ inside with csi := ?_ }, inside.cursor⟩
    rw [List.length_append]
    exact Nat.succ_lt_succ room
  · exact inside
  · exact inside.enter _

theorem Inside.feedGround (inside : Inside t) (c : Int) : Inside (feedGround t c) := by
  unfold VtScreen.feedGround
  split_ifs
  · exact inside.enter _
  · exact inside.index
  · exact inside.goTo _ _
  · exact inside.goTo _ _
  · exact inside.goTo _ _
  · exact inside.goTo _ _
  · exact inside
  · exact inside.putchar _ _

theorem Inside.feed (inside : Inside t) (c : Int) : Inside (vtFeed t c) := by
  unfold vtFeed
  split
  · split_ifs
    · exact inside.enter _
    · exact inside.enter _
    · exact inside
  · split_ifs
    · exact inside.enter _
    · exact inside
  · exact inside.feedEsc c
  · exact inside.feedCsi c
  · exact inside.feedGround c

end

/-- Fed any bytes, cursor, region, parameters and screen accesses stay in place. -/
theorem streams_stay_inside {t : Term}
    (run : Reachable interpreter (fun _ _ => True) t) : Inside t := by
  refine run.invariant ?_ ?_
  · intro t fresh
    refine ⟨⟨?_, ?_, fresh.clean⟩, fresh.cursor⟩
    · rw [fresh.region.1, fresh.region.2]
      decide
    · rw [fresh.csi]
      decide
  · rintro t c t' inside - rfl
    exact inside.feed c

theorem reachable_stream {t : Term} (run : Reachable interpreter (fun _ _ => True) t)
    (stream : List Int) : Reachable interpreter (fun _ _ => True) (stream.foldl vtFeed t) := by
  induction stream generalizing t with
  | nil => exact run
  | cons c stream ih => exact ih (run.step (a := c) trivial rfl)

/-- A terminal in front of an empty display. -/
def blank : Term where
  phase := .ground
  csi := []
  sgr := 0x07
  savx := 0
  savy := 0
  savsgr := 0
  stbTop := 0
  stbBot := 24
  alt := false
  curhidden := false
  curx := 0
  cury := 0
  ddl := ⟨fun _ => 0, fun _ => 0, false, false, true, false⟩

/-- Fed `ESC [ 2 4 r`, which sets the region to the last two rows. -/
theorem streams_stay_inside_fed :
    ([0x1B, 0x5B, 0x32, 0x34, 0x72].foldl vtFeed blank).stbTop = 23 ∧
      Inside ([0x1B, 0x5B, 0x32, 0x34, 0x72].foldl vtFeed blank) := by
  have fresh : Fresh blank :=
    ⟨rfl, rfl, rfl, ⟨rfl, rfl, rfl⟩, ⟨rfl, rfl⟩, ⟨rfl, rfl⟩, by decide, rfl⟩
  exact ⟨by rfl, streams_stay_inside (reachable_stream (.start fresh) _)⟩

end IcsOs.Console.VtScreen
