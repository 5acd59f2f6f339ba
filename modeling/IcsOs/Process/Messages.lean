/- GID: IcsOs/Process/Messages
   generality: I
   source: kernel/process/process.c, kernel/process/process.h
   digest: On one CPU, messages of senders that do not overlap are received once and in order. -/

import Mathlib.Data.List.Range
import IcsOs.Lib.Runs

set_option autoImplicit false

namespace IcsOs.Process.Messages

open Function List
open Lib.Runs

def maxMessage : Nat := 10

structure Message where
  message : Nat
  data : Nat
  sender : Nat
  receiver : Nat

/-- A queue, the senders with the index they read, and what was stored and received. -/
structure World (Sender : Type) where
  mesq : Nat → Message
  meshead : Nat
  curmes : Nat
  mestotal : Nat
  sending : Sender → Option (Nat × Message)
  stored : List Message
  received : List Message

variable {Sender : Type} [DecidableEq Sender]

def wrap (index : Nat) : Nat := if maxMessage ≤ index + 1 then 0 else index + 1

/-- Up to `dex32_stopints`: index and total are read with interrupts on. -/
def sendmessageEX (w : World Sender) (s : Sender) (m : Message) : World Sender :=
  if maxMessage - 1 ≤ w.mestotal then w
  else { w with sending := update w.sending s (some (w.meshead, m)) }

/-- The rest of `sendmessageEX`, at the index that was read. -/
def store (w : World Sender) (s : Sender) : World Sender :=
  match w.sending s with
  | none => w
  | some (index, m) => { w with
      mesq := update w.mesq index m
      mestotal := w.mestotal + 1
      meshead := wrap w.meshead
      sending := update w.sending s none
      stored := w.stored ++ [m] }

def getmessage (w : World Sender) : World Sender :=
  if w.mestotal = 0 then w
  else { w with
    curmes := wrap w.curmes
    mestotal := w.mestotal - 1
    received := w.received ++ [w.mesq w.curmes] }

/-- On one CPU: `dex32_stopints` keeps the other processes out of `store` and `getmessage`. -/
inductive Act (Sender : Type)
  | send (s : Sender) (m : Message)
  | store (s : Sender)
  | get

def perform (w : World Sender) : Act Sender → World Sender
  | .send s m => sendmessageEX w s m
  | .store s => store w s
  | .get => getmessage w

/-- A new process has an empty queue. -/
def queue : System (World Sender) (Act Sender) where
  start w := w.meshead = 0 ∧ w.curmes = 0 ∧ w.mestotal = 0 ∧ (∀ s, w.sending s = none) ∧
    w.stored = [] ∧ w.received = []
  step w act w' := perform w act = w'

/-- Nobody sends between the two halves of a send to the same process. -/
def Apart (w : World Sender) : Act Sender → Prop
  | .send _ _ => ∀ s, w.sending s = none
  | _ => True

/-- The messages in the queue, oldest first. -/
def waiting (mesq : Nat → Message) (curmes mestotal : Nat) : List Message :=
  (range mestotal).map fun j => mesq ((curmes + j) % maxMessage)

structure Kept (w : World Sender) : Prop where
  books : w.stored = w.received ++ waiting w.mesq w.curmes w.mestotal
  head : w.meshead = (w.curmes + w.mestotal) % maxMessage
  inside : w.curmes < maxMessage
  room : w.mestotal < maxMessage
  sending : ∀ s index m, w.sending s = some (index, m) →
    index = w.meshead ∧ w.mestotal + 1 < maxMessage ∧ ∀ t, t ≠ s → w.sending t = none

theorem wrap_eq {index : Nat} (inside : index < maxMessage) :
    wrap index = (index + 1) % maxMessage := by
  unfold wrap maxMessage at *
  split_ifs <;> omega

theorem waiting_store (mesq : Nat → Message) (curmes : Nat) {n : Nat} (room : n < maxMessage)
    (m : Message) : waiting (update mesq ((curmes + n) % maxMessage) m) curmes (n + 1) =
      waiting mesq curmes n ++ [m] := by
  unfold waiting
  rw [range_succ, map_append, map_singleton, update_self]
  congr 1
  apply map_congr_left
  intro j member
  apply update_of_ne
  have before := mem_range.mp member
  unfold maxMessage at *
  omega

theorem waiting_get (mesq : Nat → Message) {curmes : Nat} (inside : curmes < maxMessage) (n : Nat) :
    waiting mesq curmes (n + 1) = mesq curmes :: waiting mesq (wrap curmes) n := by
  unfold waiting
  rw [range_succ_eq_map, map_cons, map_map, Nat.add_zero, Nat.mod_eq_of_lt inside, wrap_eq inside]
  congr 1
  apply map_congr_left
  intro j _
  simp only [comp_apply, Nat.mod_add_mod]
  congr 2
  omega

variable {w : World Sender}

theorem kept_send (kept : Kept w) {s : Sender} {m : Message} (apart : ∀ t, w.sending t = none) :
    Kept (sendmessageEX w s m) := by
  unfold sendmessageEX
  split_ifs with full
  · exact kept
  refine { kept with sending := fun t index m' there => ?_ }
  by_cases own : t = s
  · subst own
    cases (update_self t (some (w.meshead, m)) w.sending).symm.trans there
    refine ⟨rfl, by dsimp only; omega, fun t' other => (update_of_ne other _ _).trans (apart t')⟩
  · cases ((update_of_ne own _ w.sending).symm.trans there).symm.trans (apart t)

/-- The message goes behind those that wait, since the index is still the head. -/
theorem kept_store (kept : Kept w) (s : Sender) : Kept (store w s) := by
  unfold store
  split
  case h_1 => exact kept
  case h_2 index m held =>
    obtain ⟨rfl, few, others⟩ := kept.sending s index m held
    refine ⟨?_, ?_, kept.inside, few, fun t index m' there => ?_⟩
    · dsimp only
      rw [kept.head, waiting_store _ _ kept.room, kept.books, append_assoc]
    · dsimp only
      have inside : w.meshead < maxMessage := kept.head ▸ Nat.mod_lt _ (by decide)
      rw [wrap_eq inside, kept.head, Nat.mod_add_mod, Nat.add_assoc]
    · by_cases own : t = s
      · subst own
        cases (update_self t none w.sending).symm.trans there
      · cases ((update_of_ne own _ w.sending).symm.trans there).symm.trans (others t own)

omit [DecidableEq Sender] in
theorem kept_get (kept : Kept w) : Kept (getmessage w) := by
  unfold getmessage
  split_ifs with empty
  · exact kept
  obtain ⟨n, total⟩ := Nat.exists_eq_succ_of_ne_zero empty
  have inside := kept.inside
  have room := kept.room
  rw [total, Nat.succ_eq_add_one, Nat.add_sub_cancel]
  refine ⟨?_, ?_, ?_, by dsimp only; omega, fun s index m there => ?_⟩
  · dsimp only
    rw [kept.books, total, waiting_get _ inside, append_assoc, singleton_append]
  · dsimp only
    rw [wrap_eq inside, Nat.mod_add_mod, kept.head, total]
    congr 1
    omega
  · rw [wrap_eq inside]
    exact Nat.mod_lt _ (by decide)
  · obtain ⟨same, few, others⟩ := kept.sending s index m there
    exact ⟨same, by dsimp only; omega, others⟩

/-- What was stored is what was received, followed by the at most nine messages that wait. -/
theorem messages_in_order (run : Reachable queue Apart w) :
    w.stored = w.received ++ waiting w.mesq w.curmes w.mestotal ∧ w.mestotal < maxMessage := by
  have kept : Kept w := by
    apply run.invariant
    · rintro w ⟨head, cur, total, sending, stored, received⟩
      constructor <;> simp [*, waiting, maxMessage]
    · rintro w act _ kept apart rfl
      cases act with
      | send s m => exact kept_send kept apart
      | store s => exact kept_store kept s
      | get => exact kept_get kept
  exact ⟨kept.books, kept.room⟩

theorem second_waits : ∃ w : World Unit, w.received = [⟨5, 0, 1, 2⟩] ∧
    w.stored = w.received ++ [⟨6, 0, 1, 2⟩] := by
  have start : Reachable queue Apart (⟨fun _ => ⟨0, 0, 0, 0⟩, 0, 0, 0, fun _ => none, [], []⟩ :
      World Unit) := .start ⟨rfl, rfl, rfl, fun _ => rfl, rfl, rfl⟩
  have run := start.follow (f := perform) (fun _ _ => rfl)
    [.send () ⟨5, 0, 1, 2⟩, .store (), .send () ⟨6, 0, 1, 2⟩, .store (), .get]
    ⟨fun _ => rfl, trivial, fun _ => rfl, trivial, trivial, trivial⟩
  exact ⟨_, rfl, (messages_in_order run).1⟩

end IcsOs.Process.Messages
