/- GID: IcsOs/Net/Progress
   generality: I
   source: kernel/net/tcp.c
   digest: When a retransmission and its answer move a connection forward. -/

import IcsOs.Net.Endpoints

set_option autoImplicit false

namespace IcsOs.Net.Progress

open List
open Lib.Runs Net.Endpoints
open Net.Input (Byte TcpState tcpFin tcpSyn tcpRst tcpPsh tcpAck hasFlag tcpRxMax tcpUnaMax
  tcpMss)

section Acknowledging

variable {e e' : Endpoint} {s : Segment}

theorem tcpOnAck_una (una : e'.una = e.una) (seq : e'.unaSeq = e.unaSeq) (ack : Seq) :
    (tcpOnAck e' ack).una = (tcpOnAck e ack).una := by
  unfold tcpOnAck
  rw [una, seq]
  split_ifs
  · exact una
  · rfl
  · rfl

theorem tcpOnAck_rest (e : Endpoint) (ack : Seq) :
    (tcpOnAck e ack).state = e.state ∧ (tcpOnAck e ack).rcvNxt = e.rcvNxt ∧
      (tcpOnAck e ack).rx = e.rx := by
  unfold tcpOnAck
  split_ifs <;> exact ⟨rfl, rfl, rfl⟩

theorem tcpOnAck_shorter {n : Nat} (some_ : 0 < n) (small : n < 2 ^ 31) (out : n ≤ e.una.length)
    {ack : Seq} (first : ack = e.unaSeq + BitVec.ofNat 32 n) :
    (tcpOnAck e ack).una.length < e.una.length := by
  have nonempty : e.una ≠ [] := by
    rintro empty
    rw [empty] at out
    exact absurd out (by simpa using some_.ne')
  have step : ack - e.unaSeq = BitVec.ofNat 32 n := by
    rw [first]
    bv_omega
  have count : (BitVec.ofNat 32 n).toNat = n := by
    rw [BitVec.toNat_ofNat]
    omega
  have positive : ¬(BitVec.ofNat 32 n).toInt ≤ 0 := by
    rw [BitVec.toInt_eq_toNat_cond, count]
    split_ifs <;> omega
  unfold tcpOnAck
  rw [step, count, if_neg (not_or.mpr ⟨nonempty, positive⟩)]
  split_ifs
  · exact length_pos_iff.mpr nonempty
  · rw [length_drop]
    omega

/-- The block after the acknowledgement of a segment was taken. -/
def acknowledged (r : Endpoint) (ack : Seq) : Endpoint :=
  tcpOnAck (if r.state = .synRcvd then
      { r with sndUna := ack, state := .established, pendingAccept := true }
    else { r with sndUna := ack }) ack

theorem acknowledged_una (r : Endpoint) (ack : Seq) :
    (acknowledged r ack).una = (tcpOnAck r ack).una := by
  unfold acknowledged
  split_ifs
  · refine tcpOnAck_una ?_ ?_ ack <;> rfl
  · refine tcpOnAck_una ?_ ?_ ack <;> rfl

theorem acknowledged_rest (r : Endpoint) (ack : Seq) :
    (acknowledged r ack).rcvNxt = r.rcvNxt ∧ (acknowledged r ack).rx = r.rx ∧
      (acknowledged r ack).echo = r.echo ∧
      (acknowledged r ack).state = if r.state = .synRcvd then .established else r.state := by
  unfold acknowledged
  rw [(tcpOnAck_rest _ ack).1, (tcpOnAck_rest _ ack).2.1, (tcpOnAck_rest _ ack).2.2, tcpOnAck_echo]
  split_ifs <;> exact ⟨rfl, rfl, rfl, rfl⟩

/-- The states in which data is taken. -/
def Open (e : Endpoint) : Prop :=
  e.state = .synRcvd ∨ e.state = .established ∨ e.state = .closeWait

theorem handleFin_none (fin : hasFlag s.flags tcpFin = false) (e : Endpoint) :
    handleFin e s = (e, []) := by
  unfold handleFin
  rw [if_neg]
  rintro ⟨set, -⟩
  rw [fin] at set
  cases set

theorem tcpHandle_open (open_ : Open e) (ack : hasFlag s.flags tcpAck = true)
    (fin : hasFlag s.flags tcpFin = false) :
    tcpHandle e s = handleData (acknowledged e s.ack) s := by
  have body : ∀ x : Endpoint, handleOpen x s =
    handleData (tcpOnAck { x with sndUna := s.ack } s.ack) s := by
    intro x
    unfold handleOpen
    dsimp only
    rw [if_pos ack, handleFin_none fin, append_nil]
  unfold tcpHandle acknowledged
  rcases open_ with state | state | state
  · rw [state]
    dsimp only
    rw [if_pos ack, if_pos rfl, body]
  · rw [state]
    dsimp only
    rw [body, if_neg (by decide), state]
  · rw [state]
    dsimp only
    rw [body, if_neg (by decide), state]

end Acknowledging

section Answer

variable {r s : Endpoint} {seg : Segment}

/-- What a retransmission of open data needs to be answered and to count. -/
structure Ready (s r : Endpoint) : Prop where
  sender : s.state = .established ∨ s.state = .finWait1
  receiver : Open r
  next : r.rcvNxt = s.unaSeq
  echoes : r.echo = true → r.state ≠ .closeWait ∧ (tcpOnAck r s.rcvNxt).una.length < tcpUnaMax

theorem tcpTimer_some (timer : tcpTimer s = some seg) :
    (s.state = .established ∨ s.state = .finWait1) ∧ s.una ≠ [] ∧
      seg = ⟨s.unaSeq, s.rcvNxt, tcpPsh ||| tcpAck, s.una.take tcpMss⟩ := by
  unfold tcpTimer at timer
  split_ifs at timer with due
  exact ⟨due.2, due.1, (Option.some.inj timer).symm⟩

theorem tcpHandle_shut (shut : ¬Open r) (syn : hasFlag seg.flags tcpSyn = false)
    (fin : hasFlag seg.flags tcpFin = false) : (tcpHandle r seg).2 = [] := by
  unfold tcpHandle
  unfold Open at shut
  cases state : r.state with
  | synSent =>
    dsimp only
    rw [if_neg (by rw [syn]; simp)]
    split_ifs <;> rfl
  | finWait1 =>
    dsimp only
    rw [if_neg (by rw [fin]; simp)]
  | lastAck =>
    dsimp only
    split_ifs <;> rfl
  | closed => rfl
  | listen => rfl
  | synRcvd => exact absurd (.inl state) shut
  | established => exact absurd (.inr (.inl state)) shut
  | closeWait => exact absurd (.inr (.inr state)) shut

/-- What an answer to data looks like. -/
structure Answers (r : Endpoint) (seg answer : Segment) : Prop where
  ack : answer.ack = seg.seq + BitVec.ofNat 32 seg.payload.length
  flagged : hasFlag answer.flags tcpAck = true
  open_ : hasFlag answer.flags tcpFin = false
  plain : r.echo = false → answer.payload = []

/-- Expected data that fits is answered, by an echo block if it can send. -/
theorem handleData_answer (r : Endpoint) (seg : Segment) (some_ : seg.payload ≠ [])
    (fits : seg.payload.length ≤ tcpRxMax)
    (empty : r.rx = []) :
    (∀ answer ∈ (handleData r seg).2, Answers r seg answer ∧ seg.seq = r.rcvNxt ∧
        (r.echo = true → r.state = .established ∧ r.una.length < tcpUnaMax)) ∧
      (seg.seq = r.rcvNxt → (r.echo = true → r.state = .established ∧ r.una.length < tcpUnaMax) →
        (handleData r seg).2 ≠ []) := by
  unfold handleData
  by_cases next : seg.seq = r.rcvNxt
  · rw [if_pos ⟨some_, next⟩, if_pos (by rw [empty]; exact fits)]
    dsimp only
    by_cases echo : r.echo = true
    · rw [if_pos echo]
      unfold tcpPcbSend
      dsimp only
      by_cases open_ : r.state = .established
      · rw [if_neg (not_or.mpr ⟨not_not.mpr open_, some_⟩)]
        by_cases full : tcpUnaMax ≤ r.una.length
        · rw [if_pos full]
          refine ⟨nofun, fun _ able => absurd (able echo).2 (by omega)⟩
        rw [if_neg full]
        refine ⟨fun answer member => ?_, fun _ _ => cons_ne_nil _ _⟩
        rw [mem_singleton] at member
        subst member
        refine ⟨⟨rfl, ?_, ?_, fun plain => ?_⟩, next, fun _ => ⟨open_, by omega⟩⟩
        · change hasFlag (tcpPsh ||| tcpAck) tcpAck = true
          decide
        · change hasFlag (tcpPsh ||| tcpAck) tcpFin = false
          decide
        · rw [echo] at plain
          cases plain
      · rw [if_pos (.inl open_)]
        exact ⟨nofun, fun _ able => absurd (able echo).1 open_⟩
    · rw [if_neg echo]
      refine ⟨fun answer member => ?_, fun _ _ => cons_ne_nil _ _⟩
      change answer ∈ [_] at member
      rw [mem_singleton] at member
      subst member
      refine ⟨⟨rfl, ?_, ?_, fun _ => rfl⟩, next, fun set => absurd set echo⟩
      · change hasFlag tcpAck tcpAck = true
        decide
      · change hasFlag tcpAck tcpFin = false
        decide
  · rw [if_neg fun both => next both.2]
    exact ⟨nofun, fun same => absurd same next⟩

theorem handleData_una (plain : r.echo = false ∨ seg.payload = []) :
    (handleData r seg).1.una = r.una := by
  unfold handleData
  split_ifs with data _ echo
  · rcases plain with plain | plain
    · rw [echo] at plain
      cases plain
    · exact absurd plain data.1
  · rfl
  · rfl
  · rfl

theorem tcpHandle_shorter {n : Nat} {answer : Segment}
    (sender : s.state = .established ∨ s.state = .finWait1)
    (ack : hasFlag answer.flags tcpAck = true) (fin : hasFlag answer.flags tcpFin = false)
    (plain : s.echo = false ∨ answer.payload = [])
    (first : answer.ack = s.unaSeq + BitVec.ofNat 32 n) (some_ : 0 < n) (small : n < 2 ^ 31)
    (out : n ≤ s.una.length) : (tcpHandle s answer).1.una.length < s.una.length := by
  have shorter := tcpOnAck_shorter some_ small out first
  rcases sender with state | state
  · rw [tcpHandle_open (.inr (.inl state)) ack fin, handleData_una, acknowledged_una]
    · exact shorter
    · rw [(acknowledged_rest s answer.ack).2.2.1]
      exact plain
  unfold tcpHandle
  rw [state]
  dsimp only
  rw [if_pos ack, if_neg (by rw [fin]; simp)]
  split_ifs
  · exact shorter
  · exact shorter

end Answer

section Contract

variable {w : World} {r s : Endpoint}

/-- The retransmission and its answer are delivered, and fewer bytes are unacknowledged. -/
def Advances (s r : Endpoint) : Prop :=
  ∃ seg, tcpTimer s = some seg ∧ ∃ answer ∈ (tcpHandle r seg).2,
    (tcpHandle s answer).1.una.length < s.una.length

theorem advances_iff (out : s.una ≠ []) (empty : r.rx = [])
    (plain : s.echo = false ∨ r.echo = false) :
    Advances s r ↔ Ready s r := by
  have some_ : s.una.take tcpMss ≠ [] := by
    intro none_
    rcases take_eq_nil_iff.mp none_ with zero | nil_
    · exact absurd zero (by decide)
    · exact out nil_
  have short : (s.una.take tcpMss).length ≤ tcpRxMax := length_take_le _ _
  have ack : hasFlag (tcpPsh ||| tcpAck) tcpAck = true := by decide
  have fin : hasFlag (tcpPsh ||| tcpAck) tcpFin = false := by decide
  obtain ⟨next, rx, echo, state⟩ := acknowledged_rest r s.rcvNxt
  -- the receiver's state once the acknowledgement of the retransmission is taken
  have taken : Open r → ((acknowledged r s.rcvNxt).state = .established ↔
    r.state ≠ .closeWait) := by
    rintro (there | there | there) <;> rw [state, there] <;> decide
  constructor
  · rintro ⟨seg, timer, answer, member, -⟩
    obtain ⟨sender, -, rfl⟩ := tcpTimer_some timer
    by_cases open_ : Open r
    · rw [tcpHandle_open open_ ack fin] at member
      obtain ⟨-, expected, able⟩ :=
        (handleData_answer _ _ some_ short (rx.trans empty)).1 answer member
      refine ⟨sender, open_, next.symm.trans expected.symm, fun echoes => ?_⟩
      obtain ⟨there, room⟩ := able (echo.trans echoes)
      rw [acknowledged_una] at room
      exact ⟨(taken open_).mp there, room⟩
    · rw [tcpHandle_shut open_ (by change hasFlag (tcpPsh ||| tcpAck) tcpSyn = false; decide) fin]
        at member
      cases member
  · intro ready
    have timer : tcpTimer s = some ⟨s.unaSeq, s.rcvNxt, tcpPsh ||| tcpAck, s.una.take tcpMss⟩ := by
      unfold tcpTimer
      rw [if_pos ⟨out, ready.sender⟩]
    obtain ⟨shape, answered⟩ := handleData_answer (acknowledged r s.rcvNxt)
      ⟨s.unaSeq, s.rcvNxt, tcpPsh ||| tcpAck, s.una.take tcpMss⟩ some_ short (rx.trans empty)
    have able : (acknowledged r s.rcvNxt).echo = true →
        (acknowledged r s.rcvNxt).state = .established ∧
          (acknowledged r s.rcvNxt).una.length < tcpUnaMax := by
      intro echoes
      obtain ⟨there, room⟩ := ready.echoes (echo.symm.trans echoes)
      rw [acknowledged_una]
      exact ⟨(taken ready.receiver).mpr there, room⟩
    obtain ⟨answer, member⟩ := exists_mem_of_ne_nil _
      (answered (ready.next.symm.trans next.symm) able)
    obtain ⟨like, -, -⟩ := shape answer member
    refine ⟨_, timer, answer, ?_, ?_⟩
    · rw [tcpHandle_open ready.receiver ack fin]
      exact member
    refine tcpHandle_shorter ready.sender like.flagged like.open_ ?_ like.ack
      (length_pos_iff.mpr some_) ?_ ?_
    · exact plain.imp id fun none_ => like.plain (echo.trans none_)
    · exact lt_of_le_of_lt short (by decide)
    · exact length_take_le' _ _

/-- The blocks of the two sides. -/
def Facing (w : World) (s r : Endpoint) : Prop :=
  ∃ x, w.at_ x = some s ∧ w.at_ x.other = some r

/-- Retransmission and answer make progress exactly if the timer runs, the receiver takes data, and
it is the next expected (and an echo block can send). -/
theorem retransmission_advances_iff (run : Reachable connections (fun _ _ => True) w)
    (facing : Facing w s r) (out : s.una ≠ []) (empty : r.rx = []) :
    Advances s r ↔ Ready s r := by
  have client := plainClient run
  obtain ⟨x, mine, theirs⟩ := facing
  apply advances_iff out empty
  cases x with
  | client => exact .inl (client s mine)
  | server => exact .inr (client r theirs)

/-- A connection, a byte from the client, then `rest`. -/
def afterByte (rest : List Act) : List Act :=
  [.deliver .server ⟨0, 0, tcpSyn, []⟩ 100, .deliver .client ⟨100, 1, tcpSyn ||| tcpAck, []⟩ 0,
    .deliver .server ⟨1, 101, tcpAck, []⟩ 0, .send .client [7]] ++ rest

def clientOut : Endpoint := ⟨.established, false, false, 0, 1, 2, 101, [], [7], 1⟩

def serverAt (next : Seq) : Endpoint := ⟨.established, false, true, 100, 101, 101, next, [], [], 0⟩

theorem afterByte_run {rest : List Act} {w : World}
    (ends : (afterByte rest).foldlM perform (opened 0 false) = some w) :
    Reachable connections (fun _ _ => True) w :=
  Reachable.attempt (fun _ _ _ taken => taken) _ (.start ⟨0, false, rfl⟩) ends

/-- A byte that was lost gets through. -/
theorem retransmission_advances_lost : ∃ w, Reachable connections (fun _ _ => True) w ∧
    Facing w clientOut (serverAt 1) ∧ Advances clientOut (serverAt 1) := by
  obtain ⟨w, ends, client, server⟩ : ∃ w, (afterByte []).foldlM perform (opened 0 false) = some w ∧
      w.at_ .client = some clientOut ∧ w.at_ .server = some (serverAt 1) := ⟨_, rfl, rfl, rfl⟩
  have run := afterByte_run ends
  have facing : Facing w clientOut (serverAt 1) := ⟨.client, client, server⟩
  refine ⟨w, run, facing, (retransmission_advances_iff run facing nofun rfl).mpr ?_⟩
  exact ⟨.inl rfl, .inr (.inl rfl), rfl, nofun⟩

/-- A byte's acknowledgement is lost: its retransmission is old data, not answered. -/
theorem lost_acknowledgement_sticks : ∃ w, Reachable connections (fun _ _ => True) w ∧
    Facing w clientOut (serverAt 2) ∧ clientOut.una ≠ [] ∧ (serverAt 2).rx = [] ∧
    ¬Advances clientOut (serverAt 2) := by
  obtain ⟨w, ends, client, server⟩ : ∃ w, (afterByte [.deliver .server
        ⟨1, 101, tcpPsh ||| tcpAck, [7]⟩ 0, .recv .server 1]).foldlM perform (opened 0 false) =
          some w ∧
      w.at_ .client = some clientOut ∧ w.at_ .server = some (serverAt 2) := ⟨_, rfl, rfl, rfl⟩
  refine ⟨w, afterByte_run ends, ⟨.client, client, server⟩, nofun, rfl, ?_⟩
  rintro ⟨seg, timer, answer, member, -⟩
  cases timer
  have silent : (tcpHandle (serverAt 2) ⟨1, 101, tcpPsh ||| tcpAck, [7]⟩).2 = [] := by decide
  change answer ∈ (tcpHandle (serverAt 2) ⟨1, 101, tcpPsh ||| tcpAck, [7]⟩).2 at member
  rw [silent] at member
  cases member

end Contract

end IcsOs.Net.Progress
