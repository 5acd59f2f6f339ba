/- GID: IcsOs/Net/Endpoints
   generality: I
   source: kernel/net/tcp.c, kernel/net/tcp.h
   digest: A connection between a client and a listening server over a channel that may lose,
     repeat and reorder segments. -/

import IcsOs.Lib.Runs
import IcsOs.Net.Input

set_option autoImplicit false

namespace IcsOs.Net.Endpoints

open Option
open Lib.Runs
open Net.Input (Byte TcpState tcpFin tcpSyn tcpRst tcpPsh tcpAck hasFlag tcpRxMax tcpUnaMax
  tcpMss)

abbrev Seq := BitVec 32

/-- What of a segment the other side looks at; windows are announced and never used. -/
structure Segment where
  seq : Seq
  ack : Seq
  flags : Nat
  payload : List Byte
  deriving DecidableEq

/-- `rx` and `una` are the used parts of the buffers. -/
structure Endpoint where
  state : TcpState
  echo : Bool
  pendingAccept : Bool
  iss : Seq
  sndUna : Seq
  sndNxt : Seq
  rcvNxt : Seq
  rx : List Byte
  una : List Byte
  unaSeq : Seq
  deriving DecidableEq

def tcpOutput (e : Endpoint) (flags : Nat) (payload : List Byte) : Endpoint × Segment :=
  let next :=
    if hasFlag flags tcpSyn = true then e.sndNxt + 1
    else if payload ≠ [] then e.sndNxt + BitVec.ofNat 32 payload.length
    else e.sndNxt
  ({ e with sndNxt := if hasFlag flags tcpFin = true then next + 1 else next },
    ⟨e.sndNxt, e.rcvNxt, flags, payload⟩)

/-- `tcp_output` without payload, as an answer. -/
def answer (e : Endpoint) (flags : Nat) : Endpoint × List Segment :=
  let out := tcpOutput e flags []
  (out.1, [out.2])

/-- What is sent when a block's timer has run out (`tcp_rexmit_una`). -/
def tcpTimer (e : Endpoint) : Option Segment :=
  if e.una ≠ [] ∧ (e.state = .established ∨ e.state = .finWait1) then
    some ⟨e.unaSeq, e.rcvNxt, tcpPsh ||| tcpAck, e.una.take tcpMss⟩
  else none

/-- A block without space gives up. -/
def tcpPcbSend (e : Endpoint) (buf : List Byte) : Option (Endpoint × Segment) :=
  if e.state ≠ .established ∨ buf = [] then none
  else if tcpUnaMax ≤ e.una.length then none
  else
    let data := (buf.take (tcpUnaMax - e.una.length)).take tcpMss
    some (tcpOutput
      { e with
        unaSeq := if e.una = [] then e.sndNxt else e.unaSeq
        una := e.una ++ data }
      (tcpPsh ||| tcpAck) data)

def tcpOnAck (e : Endpoint) (ack : Seq) : Endpoint :=
  if e.una = [] ∨ (ack - e.unaSeq).toInt ≤ 0 then e
  else if e.una.length ≤ (ack - e.unaSeq).toNat then { e with una := [], sndUna := ack }
  else { e with una := e.una.drop (ack - e.unaSeq).toNat, unaSeq := ack, sndUna := ack }

def handleData (e : Endpoint) (s : Segment) : Endpoint × List Segment :=
  if s.payload ≠ [] ∧ s.seq = e.rcvNxt then
    if s.payload.length ≤ tcpRxMax - e.rx.length then
      let e' := { e with
        rcvNxt := s.seq + BitVec.ofNat 32 s.payload.length, rx := e.rx ++ s.payload }
      if e.echo = true then
        match tcpPcbSend e' s.payload with
        | none => (e', [])
        | some out => (out.1, [out.2])
      else answer e' tcpAck
    else answer e tcpAck
  else (e, [])

/-- The end of the peer's data. -/
def handleFin (e : Endpoint) (s : Segment) : Endpoint × List Segment :=
  if hasFlag s.flags tcpFin = true ∧ (s.seq = e.rcvNxt ∨
      s.payload ≠ [] ∧ s.seq + BitVec.ofNat 32 s.payload.length = e.rcvNxt) then
    let e' := { e with rcvNxt := s.seq + BitVec.ofNat 32 s.payload.length + 1 }
    if e.state = .established ∨ e.state = .synRcvd then
      let acked := answer { e' with state := .closeWait } tcpAck
      if e.echo = true then
        let ended := answer acked.1 (tcpFin ||| tcpAck)
        ({ ended.1 with state := .lastAck }, acked.2 ++ ended.2)
      else acked
    else (e', [])
  else (e, [])

def handleOpen (e : Endpoint) (s : Segment) : Endpoint × List Segment :=
  let acked :=
    if hasFlag s.flags tcpAck = true then tcpOnAck { e with sndUna := s.ack } s.ack else e
  let data := handleData acked s
  let fin := handleFin data.1 s
  (fin.1, data.2 ++ fin.2)

/-- `tcp_handle` for a block that has a peer. -/
def tcpHandle (e : Endpoint) (s : Segment) : Endpoint × List Segment :=
  match e.state with
  | .synSent =>
    if hasFlag s.flags tcpSyn = true ∧ hasFlag s.flags tcpAck = true then
      answer { e with rcvNxt := s.seq + 1, sndUna := s.ack, state := .established } tcpAck
    else if hasFlag s.flags tcpRst = true then ({ e with state := .closed }, [])
    else (e, [])
  | .synRcvd =>
    handleOpen (if hasFlag s.flags tcpAck = true then
        { e with sndUna := s.ack, state := .established, pendingAccept := true }
      else e) s
  | .established => handleOpen e s
  | .closeWait => handleOpen e s
  | .finWait1 =>
    let acked := if hasFlag s.flags tcpAck = true then tcpOnAck e s.ack else e
    let done :=
      if hasFlag s.flags tcpAck = true ∧ s.ack = acked.sndNxt then { acked with state := .closed }
      else acked
    if hasFlag s.flags tcpFin = true then
      let out := answer { done with rcvNxt := s.seq + 1 } tcpAck
      ({ out.1 with state := .closed }, out.2)
    else (done, [])
  | .lastAck => if hasFlag s.flags tcpAck = true then ({ e with state := .closed }, []) else (e, [])
  | .closed => (e, [])
  | .listen => (e, [])

/-- A listener's new block for a request, and its answer. -/
def acceptSyn (echo : Bool) (iss : Seq) (s : Segment) : Endpoint × List Segment :=
  answer ⟨.synRcvd, echo, false, iss, iss, iss, s.seq + 1, [], [], 0⟩ (tcpSyn ||| tcpAck)

/-- The answer of `tcp_input` to a segment for no block. -/
def refuse (s : Segment) : List Segment :=
  if hasFlag s.flags tcpRst = true then []
  else
    [⟨s.ack, s.seq + if hasFlag s.flags tcpSyn = true then 1 else BitVec.ofNat 32 s.payload.length,
      tcpRst ||| tcpAck, []⟩]

/-- The start of `tcp_pcb_connect`. -/
def connecting (iss : Seq) : Endpoint × List Segment :=
  answer ⟨.synSent, false, false, iss, iss, iss, 0, [], [], 0⟩ tcpSyn

/-- A repeated connection request. -/
def resyn (e : Endpoint) : Endpoint × List Segment := answer { e with sndNxt := e.iss } tcpSyn

/-- With something to read; a closed window is announced again. -/
def tcpPcbRecv (e : Endpoint) (len : Nat) : Endpoint × List Segment :=
  let e' := { e with rx := e.rx.drop len }
  if tcpRxMax ≤ e.rx.length ∧ e'.rx.length < tcpRxMax then answer e' tcpAck else (e', [])

/-- `tcp_pcb_close` up to its last wait. -/
def tcpPcbClose (e : Endpoint) : Endpoint × List Segment :=
  if e.state = .established ∨ e.state = .closeWait then
    let out := answer e (tcpFin ||| tcpAck)
    ({ out.1 with state := if e.state = .closeWait then .lastAck else .finWait1 }, out.2)
  else (e, [])

inductive Side
  | client
  | server
  deriving DecidableEq

def Side.other : Side → Side
  | .client => .server
  | .server => .client

/-- The two blocks, every segment sent, and whether the listener is the echo service. The channel
may lose, repeat and reorder. -/
structure World where
  at_ : Side → Option Endpoint
  sent : Side → List Segment
  echo : Bool

def World.put (w : World) (x : Side) (out : Endpoint × List Segment) : World :=
  { w with
    at_ := Function.update w.at_ x (some out.1)
    sent := Function.update w.sent x (w.sent x ++ out.2) }

inductive Act
  | deliver (x : Side) (s : Segment) (iss : Seq)
  | timer (x : Side)
  | send (x : Side) (buf : List Byte)
  | recv (x : Side) (len : Nat)
  | close (x : Side)
  | free (x : Side)
  | resyn

/-- No block: the server listens, the client refuses. -/
def deliverNone (w : World) (x : Side) (s : Segment) (iss : Seq) : World :=
  match x with
  | .server =>
    if hasFlag s.flags tcpSyn = true ∧ hasFlag s.flags tcpAck = false then
      w.put .server (acceptSyn w.echo iss s)
    else w
  | .client => { w with sent := Function.update w.sent .client (w.sent .client ++ refuse s) }

def perform (w : World) : Act → Option World
  | .deliver x s iss =>
    if s ∈ w.sent x.other then
      match w.at_ x with
      | none => some (deliverNone w x s iss)
      | some e => some (w.put x (tcpHandle e s))
    else none
  | .timer x => (w.at_ x).bind fun e => (tcpTimer e).map fun s => w.put x (e, [s])
  | .send x buf => (w.at_ x).bind fun e => (tcpPcbSend e buf).map fun out =>
    w.put x (out.1, [out.2])
  | .recv x len => (w.at_ x).map fun e => w.put x (tcpPcbRecv e len)
  | .close x => (w.at_ x).map fun e => w.put x (tcpPcbClose e)
  | .free x => some { w with at_ := Function.update w.at_ x none }
  | .resyn => (w.at_ .client).bind fun e =>
    if e.state = .synSent then some (w.put .client (resyn e)) else none

def opened (iss : Seq) (echo : Bool) : World where
  at_ x := match x with
    | .client => some (connecting iss).1
    | .server => none
  sent x := match x with
    | .client => (connecting iss).2
    | .server => []
  echo := echo

def connections : System World Act where
  start w := ∃ iss echo, w = opened iss echo
  step w a w' := perform w a = some w'

section

variable {e : Endpoint} {s : Segment}

theorem tcpPcbSend_echo {buf : List Byte} {out : Endpoint × Segment}
    (sent : tcpPcbSend e buf = some out) : out.1.echo = e.echo := by
  unfold tcpPcbSend at sent
  split_ifs at sent <;>
  · cases sent
    rfl

theorem tcpOnAck_echo (e : Endpoint) (ack : Seq) : (tcpOnAck e ack).echo = e.echo := by
  unfold tcpOnAck
  split_ifs <;> rfl

theorem handleData_echo (e : Endpoint) (s : Segment) : (handleData e s).1.echo = e.echo := by
  unfold handleData
  split_ifs
  · dsimp only
    cases sent : tcpPcbSend _ s.payload with
    | none => rfl
    | some out =>
      have kept := tcpPcbSend_echo sent
      exact kept
  · rfl
  · rfl
  · rfl

theorem handleFin_echo (e : Endpoint) (s : Segment) : (handleFin e s).1.echo = e.echo := by
  unfold handleFin
  split_ifs <;> rfl

theorem handleOpen_echo (e : Endpoint) (s : Segment) : (handleOpen e s).1.echo = e.echo := by
  unfold handleOpen
  dsimp only
  rw [handleFin_echo, handleData_echo]
  split_ifs
  · exact tcpOnAck_echo _ _
  · rfl

theorem tcpHandle_echo (e : Endpoint) (s : Segment) : (tcpHandle e s).1.echo = e.echo := by
  unfold tcpHandle
  cases e.state with
  | synSent => dsimp only; split_ifs <;> rfl
  | synRcvd =>
    dsimp only
    rw [handleOpen_echo]
    split_ifs <;> rfl
  | established => exact handleOpen_echo e s
  | closeWait => exact handleOpen_echo e s
  | finWait1 =>
    dsimp only
    split_ifs <;> first | rfl | exact tcpOnAck_echo _ _
  | lastAck => dsimp only; split_ifs <;> rfl
  | closed => rfl
  | listen => rfl

variable {w w' : World} {a : Act}

def PlainClient (w : World) : Prop := ∀ e, w.at_ .client = some e → e.echo = false

theorem PlainClient.put {x : Side} {out : Endpoint × List Segment} (plain : PlainClient w)
    (kept : x = .client → out.1.echo = false) : PlainClient (w.put x out) := by
  intro e held
  cases x with
  | client =>
    change Function.update w.at_ .client (some out.1) .client = some e at held
    rw [Function.update_self] at held
    cases held
    exact kept rfl
  | server =>
    change Function.update w.at_ .server (some out.1) .client = some e at held
    rw [Function.update_of_ne (by decide)] at held
    exact plain e held

theorem plainClient_step (plain : PlainClient w) (taken : perform w a = some w') :
    PlainClient w' := by
  cases a with
  | deliver x s iss =>
    change (if s ∈ w.sent x.other then _ else none) = some w' at taken
    split_ifs at taken with there
    cases held : w.at_ x with
    | none =>
      rw [held] at taken
      cases taken
      cases x with
      | client => exact plain
      | server =>
        unfold deliverNone
        dsimp only
        split_ifs
        · exact plain.put nofun
        · exact plain
    | some e =>
      rw [held] at taken
      cases taken
      refine plain.put fun own => ?_
      subst own
      rw [tcpHandle_echo]
      exact plain e held
  | timer x =>
    obtain ⟨e, held, sent⟩ := bind_eq_some_iff.mp taken
    obtain ⟨s, -, rfl⟩ := map_eq_some_iff.mp sent
    exact plain.put fun own => plain e (own ▸ held)
  | send x buf =>
    obtain ⟨e, held, sent⟩ := bind_eq_some_iff.mp taken
    obtain ⟨out, went, rfl⟩ := map_eq_some_iff.mp sent
    refine plain.put fun own => ?_
    change out.1.echo = false
    rw [tcpPcbSend_echo went]
    exact plain e (own ▸ held)
  | recv x len =>
    obtain ⟨e, held, rfl⟩ := map_eq_some_iff.mp taken
    refine plain.put fun own => ?_
    have same : (tcpPcbRecv e len).1.echo = e.echo := by
      unfold tcpPcbRecv
      dsimp only
      split_ifs <;> rfl
    rw [same]
    exact plain e (own ▸ held)
  | close x =>
    obtain ⟨e, held, rfl⟩ := map_eq_some_iff.mp taken
    refine plain.put fun own => ?_
    have same : (tcpPcbClose e).1.echo = e.echo := by
      unfold tcpPcbClose
      split_ifs <;> rfl
    rw [same]
    exact plain e (own ▸ held)
  | free x =>
    cases taken
    intro e held
    cases x with
    | client => cases held
    | server =>
      change Function.update w.at_ .server none .client = some e at held
      rw [Function.update_of_ne (by decide)] at held
      exact plain e held
  | resyn =>
    obtain ⟨e, held, sent⟩ := bind_eq_some_iff.mp taken
    split_ifs at sent
    cases sent
    exact plain.put fun _ => plain e held

theorem plainClient {guard : World → Act → Prop} (run : Reachable connections guard w) :
    PlainClient w := by
  apply run.invariant
  · rintro w ⟨iss, echo, rfl⟩ e held
    cases held
    rfl
  · exact fun w a w' plain _ taken => plainClient_step plain taken

end

end IcsOs.Net.Endpoints
