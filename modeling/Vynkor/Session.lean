import Vynkor.Client
import Vynkor.FrameBytes

/-! A client in use: its operations in any order, with `send_fragmented`,
`register_full` and `recv_frame` cut where they wait. A frame that arrives while
`register_full` waits is its answer. -/
namespace Vynkor
open Octets (Bytes)
open Text Framing Reassembly ExactReader Labelled

/- `inFlight` are the `send_fragmented` calls past their checks, `registering` is the
plugin id of a `register_full` call that waits for its ack. -/
structure Session where
  client : VynkorClient
  inFlight : List FragmentPlan
  registering : Option Str

inductive Operation where
  | connect
  | close
  | send (target : Str) (flags : Nat) (payload : Bytes) (fault : Option Str)
  | beginFragmented (target : Str) (payload : Bytes) (chunkSize : Int)
  | sendFragment (call : Nat) (fault : Option Str)
  | register (r : Registration) (fault : Option Str)
  | recvFrame (clock : Arrival) (inbox : Inbox)
  | recvCancelled (prunedAt : Time)
  deriving DecidableEq

def Operation.Plain : Operation → Prop
  | .send _ flags _ _ => flags &&& flagCompressed = 0
  | _ => True

inductive Report where
  | wrote (frame : Bytes)
  | fragment (streamId sequence : Nat) (frame : Bytes)
  | delivered (flags : Nat) (payload : Bytes)
  | registered (connection : Nat) (ack : PluginRegisterAck)
  | raised (error : Error)
  deriving DecidableEq, Repr

def Report.written : Report → Option Bytes
  | .wrote frame => some frame
  | .fragment _ _ frame => some frame
  | _ => none

def Writes (reports : List Report) (frame : Bytes) : Prop := ∃ report ∈ reports, report.written = some frame

namespace Session

def start (c : VynkorClient) : Session := ⟨c, [], none⟩

def sendReports (wrote : Bytes → Report) (sent : List Bytes × Except Error Unit) : List Report :=
  sent.1.map wrote ++ match sent.2 with
    | .ok () => []
    | .error e => [.raised e]

def haltError : Halt Error → Error
  | .raised e => e
  | .incomplete => .incompleteRead

section Step
variable (x : Externals) (codec : Codec)

def sendFragment (s : Session) (call : Nat) (fault : Option Str) : Option (Session × List Report) :=
  match s.inFlight[call]? with
  | none => none
  | some plan =>
    if plan.next < plan.total then
      match plan.fragment plan.next with
      | .error e => some ({ s with inFlight := s.inFlight.eraseIdx call }, [.raised e])
      | .ok payload =>
        let sent := s.client.sendRawWithFlags x plan.target flagFragmented payload fault
        match sent.2 with
        | .ok () =>
          some ({ s with inFlight := s.inFlight.set call { plan with next := plan.next + 1 } },
            sendReports (.fragment plan.streamId plan.next) sent)
        | .error _ =>
          some ({ s with inFlight := s.inFlight.eraseIdx call },
            sendReports (.fragment plan.streamId plan.next) sent)
    else none

def register (s : Session) (r : Registration) (fault : Option Str) : Session × List Report :=
  let c := { s.client with pluginId := some r.pluginId }
  let sent := c.sendRegister x codec r fault
  match sent.2 with
  | .ok () => ({ s with client := c, registering := some r.pluginId }, sendReports .wrote sent)
  | .error _ => ({ s with client := c }, sendReports .wrote sent)

def answerRegistration (c : VynkorClient) (pluginId : Str) (flags : Nat) (payload : Bytes) :
    Except Error PluginRegisterAck × VynkorClient :=
  match VynkorClient.decodeEnvelope codec flags payload with
  | .error e => (.error e, c)
  | .ok response => c.handleRegisterResponse x pluginId response

def recvFrame (s : Session) (clock : Arrival) (inbox : Inbox) : Session × List Report :=
  match s.client.recvTurn x clock inbox with
  | (.error halt, c, _) => ({ s with client := c, registering := none }, [.raised (haltError halt)])
  | (.ok none, c, _) => ({ s with client := c }, [])
  | (.ok (some (flags, payload)), c, _) =>
    match s.registering with
    | none => ({ s with client := c }, [.delivered flags payload])
    | some pluginId =>
      match answerRegistration x codec c pluginId flags payload with
      | (.error e, c) => ({ s with client := c, registering := none }, [.delivered flags payload, .raised e])
      | (.ok ack, c) =>
        ({ s with client := c, registering := none }, [.delivered flags payload, .registered c.connection ack])

def step (s : Session) : Operation → Option (Session × List Report)
  | .connect => some ({ s with client := s.client.connect }, [])
  | .close => some ({ s with client := s.client.close }, [])
  | .send target flags payload fault =>
    some (s, sendReports .wrote (s.client.sendRawWithFlags x target flags payload fault))
  | .beginFragmented target payload chunkSize =>
    match s.client.beginFragmented target payload chunkSize with
    | .error e => some (s, [.raised e])
    | .ok (plan, c) => some ({ s with client := c, inFlight := s.inFlight ++ [plan] }, [])
  | .sendFragment call fault => s.sendFragment x call fault
  | .register r fault => if s.registering.isSome then none else some (s.register x codec r fault)
  | .recvFrame clock inbox => some (s.recvFrame x codec clock inbox)
  | .recvCancelled prunedAt => some ({ s with client := s.client.prune prunedAt, registering := none }, [])

def machine : Machine Session Operation Report := ⟨step x codec⟩

end Step

def Holds (transport : Transport) (inbox : Inbox) (f : Frame) : Prop :=
  match transport with
  | .uds => f.bytes <+: inbox.stream
  | .ws => ∃ data, .binary data ∈ inbox.messages ∧ f.bytes <+: data

section Reading
variable {x : Externals} {c : VynkorClient}

theorem wsReads {sessionKey : Option Bytes} {messages rest : List WsMessage} {value : Nat × Bytes}
    (ok : VynkorClient.wsRecvFrame x sessionKey messages = (.ok value, rest)) :
    ∃ f : Frame, (∃ data, .binary data ∈ messages ∧ f.bytes <+: data) ∧ f.deliver x sessionKey = .ok value := by
  induction messages with
  | nil => simp [VynkorClient.wsRecvFrame] at ok
  | cons message later ih =>
    cases message with
    | text _ | other =>
      obtain ⟨f, ⟨data, member, front⟩, delivered⟩ := ih ok
      exact ⟨f, ⟨data, List.mem_cons_of_mem _ member, front⟩, delivered⟩
    | closed reason => simp [VynkorClient.wsRecvFrame] at ok
    | binary data =>
      simp only [VynkorClient.wsRecvFrame, Prod.mk.injEq] at ok
      cases read : readStream x sessionKey data with
      | error e => simp [readFrameFromBytes, read, Except.map, Except.mapError] at ok
      | ok got =>
        obtain ⟨given, tail⟩ := got
        simp only [readFrameFromBytes, read, Except.map, Except.mapError, Except.ok.injEq] at ok
        obtain ⟨rfl, rfl⟩ := ok
        obtain ⟨f, rfl, delivered⟩ := asyncAccepted (streamReads.mp read)
        exact ⟨f, ⟨_, List.mem_cons_self, List.prefix_append _ _⟩, delivered⟩

theorem nextFrameReads {inbox rest : Inbox} {value : Nat × Bytes}
    (ok : c.nextFrame x inbox = (.ok value, rest)) :
    ∃ f : Frame, Holds c.transport inbox f ∧ f.deliver x c.sessionKey = .ok value := by
  unfold VynkorClient.nextFrame at ok
  cases kind : c.transport with
  | ws =>
    simp only [kind] at ok
    split at ok
    · rcases read : VynkorClient.wsRecvFrame x c.sessionKey inbox.messages with ⟨outcome, left⟩
      simp only [read, Prod.mk.injEq] at ok
      obtain ⟨rfl, rfl⟩ := ok
      exact wsReads read
    · cases ok
  | uds =>
    simp only [kind] at ok
    split at ok
    · rcases read : (asyncReadFrame x c.sessionKey).run inbox.stream with ⟨outcome, left⟩
      simp only [read, Prod.mk.injEq] at ok
      obtain ⟨rfl, rfl⟩ := ok
      obtain ⟨f, stream, delivered⟩ := asyncAccepted read
      exact ⟨f, by simp [Holds, stream], delivered⟩
    · cases ok

end Reading

section Turns
variable {x : Externals} {codec : Codec} {c after : VynkorClient} {clock : Arrival} {inbox rest : Inbox}

inductive Turns (x : Externals) (c : VynkorClient) (clock : Arrival) (inbox : Inbox) :
    Except (Halt Error) (Option (Nat × Bytes)) → VynkorClient → Prop where
  | stopped {halt rest} (read : (c.prune clock.prunedAt).nextFrame x inbox = (.error halt, rest)) :
      Turns x c clock inbox (.error halt) (c.prune clock.prunedAt)
  | plain {flags payload rest}
      (read : (c.prune clock.prunedAt).nextFrame x inbox = (.ok (flags, payload), rest))
      (whole : flags &&& flagFragmented = 0) :
      Turns x c clock inbox (.ok (some (flags, payload))) (c.prune clock.prunedAt)
  | fragment {flags payload rest outcome streams}
      (read : (c.prune clock.prunedAt).nextFrame x inbox = (.ok (flags, payload), rest))
      (part : flags &&& flagFragmented ≠ 0)
      (absorbed : absorbFragment clock.arrivedAt c.connection flags payload
        (pruneReassembly clock.prunedAt c.reassembly) = (outcome, streams)) :
      Turns x c clock inbox (outcome.mapError .raised) { c with reassembly := streams }

theorem turnCases {outcome : Except (Halt Error) (Option (Nat × Bytes))}
    (ran : c.recvTurn x clock inbox = (outcome, after, rest)) : Turns x c clock inbox outcome after := by
  unfold VynkorClient.recvTurn at ran
  rcases read : (c.prune clock.prunedAt).nextFrame x inbox with ⟨halt | ⟨flags, payload⟩, left⟩
  · simp only [read] at ran
    cases ran
    exact .stopped read
  · simp only [read, VynkorClient.acceptFrame] at ran
    by_cases whole : flags &&& flagFragmented = 0
    · simp only [whole, ne_eq, not_true_eq_false, if_false] at ran
      cases ran
      exact .plain read whole
    · simp only [whole, ne_eq, not_false_eq_true, if_true] at ran
      cases ran
      exact .fragment read whole rfl

theorem turnRan {outcome : Except (Halt Error) (Option (Nat × Bytes))}
    (turn : Turns x c clock inbox outcome after) : (c.recvTurn x clock inbox).1 = outcome := by
  unfold VynkorClient.recvTurn
  cases turn with
  | stopped read => simp only [read]
  | plain read whole =>
    simp only [read, VynkorClient.acceptFrame, whole, ne_eq, not_true_eq_false, if_false]
    rfl
  | fragment read part absorbed =>
    have same : absorbFragment clock.arrivedAt (c.prune clock.prunedAt).connection _ _
      (c.prune clock.prunedAt).reassembly = _ := absorbed
    simp only [read, VynkorClient.acceptFrame, if_pos part, same]

structure KeyOf (x : Externals) (c : VynkorClient) (pluginId : Str) (ack : PluginRegisterAck) (key : Bytes) :
    Prop where
  nonce : ack.sessionNonce ≠ []
  derived : ∃ secret, c.secret = some secret ∧ secret ≠ [] ∧
    deriveSessionKey x secret ack.sessionNonce pluginId = .ok key

theorem nonceCases {pluginId : Str} {nonce : Bytes}
    (ok : c.applySessionNonce x pluginId nonce = .ok after) :
    (after = c ∧ ∀ secret, c.secret = some secret → secret = [] ∨ nonce = []) ∨
    ∃ secret key, c.secret = some secret ∧ secret ≠ [] ∧
      deriveSessionKey x secret nonce pluginId = .ok key ∧ after = { c with sessionKey := some key } := by
  unfold VynkorClient.applySessionNonce at ok
  cases held : c.secret with
  | none =>
    simp only [held] at ok
    cases ok
    exact .inl ⟨rfl, nofun⟩
  | some secret =>
    simp only [held] at ok
    by_cases both : secret ≠ [] ∧ nonce ≠ []
    · rw [if_pos both] at ok
      cases derived : deriveSessionKey x secret nonce pluginId with
      | error e => simp [derived, Except.map] at ok
      | ok key =>
        simp only [derived, Except.map] at ok
        cases ok
        exact .inr ⟨secret, key, rfl, both.1, derived, rfl⟩
    · rw [if_neg both] at ok
      cases ok
      refine .inl ⟨rfl, fun other same => ?_⟩
      cases same
      by_cases empty : secret = []
      · exact .inl empty
      · exact .inr (by_contra fun nonce => both ⟨empty, nonce⟩)

/- The answer to a registration touches the session key only, and that only with
the key of the ack it returns. -/
theorem answerCases {pluginId : Str} {flags : Nat} {payload : Bytes}
    {outcome : Except Error PluginRegisterAck}
    (ran : answerRegistration x codec c pluginId flags payload = (outcome, after)) :
    after = c ∨ ∃ ack key, outcome = .ok ack ∧ KeyOf x c pluginId ack key ∧
      VynkorClient.decodeEnvelope codec flags payload = .ok ⟨some (.pluginRegisterAck ack)⟩ ∧
      after = { c with sessionKey := some key } := by
  unfold answerRegistration at ran
  split at ran
  · cases ran; exact .inl rfl
  · rename_i response decoded
    obtain ⟨content⟩ := response
    unfold VynkorClient.handleRegisterResponse at ran
    split at ran
    · rename_i ack is_ack
      cases is_ack
      unfold VynkorClient.handleAck at ran
      split at ran
      · rename_i nonce
        split at ran
        · cases ran; exact .inl rfl
        · rename_i keyed applied
          cases ran
          rcases nonceCases applied with ⟨rfl, -⟩ | ⟨secret, key, held, full, derived, rfl⟩
          · exact .inl rfl
          · exact .inr ⟨ack, key, rfl, ⟨nonce, secret, held, full, derived⟩, decoded, rfl⟩
      · cases ran; exact .inl rfl
    · cases ran; exact .inl rfl
    · cases ran; exact .inl rfl

theorem turnKeeps {outcome : Except (Halt Error) (Option (Nat × Bytes))}
    (turn : Turns x c clock inbox outcome after) : after = { c with reassembly := after.reassembly } := by
  cases turn <;> rfl

theorem stoppedPrunes (turn : Turns x c clock inbox (.error .incomplete) after) : after = c.prune clock.prunedAt := by
  generalize stopped : (Except.error .incomplete : Except (Halt Error) (Option (Nat × Bytes))) = outcome at turn
  cases turn with
  | stopped read => rfl
  | plain read whole => cases stopped
  | @fragment flags payload rest outcome streams read part absorbed => cases outcome <;> cases stopped

end Turns

section Steps
variable {x : Externals} {codec : Codec} {s t : Session} {op : Operation} {reports : List Report}

inductive ClientStep (x : Externals) (codec : Codec) (s : Session) :
    Operation → VynkorClient → List Report → Prop where
  | connected : ClientStep x codec s .connect s.client.connect []
  | kept {op c reports} (notConnect : op ≠ .connect) (notRecv : ∀ clock inbox, op ≠ .recvFrame clock inbox)
      (same : c = { s.client with
        pluginId := c.pluginId, nextStreamId := c.nextStreamId, streams := c.streams, webSocket := c.webSocket }) :
      ClientStep x codec s op c reports
  | pruned {now} : ClientStep x codec s (.recvCancelled now) (s.client.prune now) []
  | turned {clock inbox outcome after reports} (turn : Turns x s.client clock inbox outcome after) :
      ClientStep x codec s (.recvFrame clock inbox) after reports
  | keyed {clock inbox flags payload after pluginId ack key} (waiting : s.registering = some pluginId)
      (turn : Turns x s.client clock inbox (.ok (some (flags, payload))) after)
      (decoded : VynkorClient.decodeEnvelope codec flags payload = .ok ⟨some (.pluginRegisterAck ack)⟩)
      (derived : KeyOf x after pluginId ack key) :
      ClientStep x codec s (.recvFrame clock inbox) { after with sessionKey := some key }
        [.delivered flags payload, .registered after.connection ack]

theorem recvFrameStep (clock : Arrival) (inbox : Inbox) :
    ClientStep x codec s (.recvFrame clock inbox) (s.recvFrame x codec clock inbox).1.client
      (s.recvFrame x codec clock inbox).2 := by
  rcases ran : s.client.recvTurn x clock inbox with ⟨outcome, after, rest⟩
  have turn := turnCases ran
  unfold recvFrame
  rw [ran]
  rcases outcome with halt | (_ | ⟨flags, payload⟩)
  · exact .turned turn
  · exact .turned turn
  · cases waiting : s.registering with
    | none => exact .turned turn
    | some pluginId =>
      rcases answer : answerRegistration x codec after pluginId flags payload with ⟨answered, keyed⟩
      rcases answerCases answer with rfl | ⟨ack, key, rfl, derived, decoded, rfl⟩
      · cases answered <;> simp only [answer] <;> exact .turned turn
      · simp only [answer]
        exact .keyed waiting turn decoded derived

theorem sendFragmentKeeps {call : Nat} {fault : Option Str} (move : s.sendFragment x call fault = some (t, reports)) :
    t.client = s.client ∧ t.registering = s.registering := by
  simp only [sendFragment] at move
  repeat' split at move
  all_goals first | contradiction | (cases move; exact ⟨rfl, rfl⟩)

theorem registerKeeps {r : Registration} {fault : Option Str}
    (move : s.step x codec (.register r fault) = some (t, reports)) :
    t.client = { s.client with pluginId := some r.pluginId } := by
  simp only [step, register] at move
  repeat' split at move
  all_goals first | contradiction | (cases move; rfl)

theorem stepClient (move : s.step x codec op = some (t, reports)) :
    ClientStep x codec s op t.client reports := by
  cases op with
  | connect => cases move; exact .connected
  | close =>
    cases move
    refine .kept nofun nofun ?_
    rw [closeKeeps]
  | send target flags payload fault => cases move; exact .kept nofun nofun rfl
  | beginFragmented target payload chunkSize =>
    refine .kept nofun nofun ?_
    simp only [step] at move
    split at move
    · cases move; rfl
    · rename_i plan c begun
      cases move
      rw [(beginTakes begun).2]
  | sendFragment call fault =>
    refine .kept nofun nofun ?_
    rw [(sendFragmentKeeps move).1]
  | register r fault =>
    refine .kept nofun nofun ?_
    rw [registerKeeps move]
  | recvFrame clock inbox =>
    have pair : s.recvFrame x codec clock inbox = (t, reports) := Option.some.inj move
    have whole : ClientStep x codec s (.recvFrame clock inbox) _ _ := recvFrameStep clock inbox
    rwa [pair] at whole
  | recvCancelled prunedAt => cases move; exact .pruned

/- Every frame that goes out went through `send_raw_with_flags` under the session
key of the moment. -/
theorem sentFrame {wrote : Bytes → Report} (faithful : ∀ frame, (wrote frame).written = some frame)
    {sent : List Bytes × Except Error Unit} {frame : Bytes} (writes : Writes (sendReports wrote sent) frame) :
    frame ∈ sent.1 := by
  obtain ⟨report, member, same⟩ := writes
  unfold sendReports at member
  rcases List.mem_append.mp member with written | failed
  · obtain ⟨f, inside, rfl⟩ := List.mem_map.mp written
    rw [faithful] at same
    cases same
    exact inside
  · split at failed
    · simp at failed
    · rw [List.mem_singleton.mp failed] at same
      contradiction

theorem recvSilent (clock : Arrival) (inbox : Inbox) (frame : Bytes) :
    ¬ Writes (s.recvFrame x codec clock inbox).2 frame := by
  unfold recvFrame
  rcases s.client.recvTurn x clock inbox with ⟨halt | (_ | ⟨flags, payload⟩), after, rest⟩
  · simp [Writes, Report.written]
  · simp [Writes]
  · cases s.registering with
    | none => simp [Writes, Report.written]
    | some pluginId =>
      rcases answer : answerRegistration x codec after pluginId flags payload with ⟨_ | _, keyed⟩ <;>
        simp [answer, Writes, Report.written]

theorem stepWrites (move : s.step x codec op = some (t, reports)) {frame : Bytes} (writes : Writes reports frame) :
    ∃ c : VynkorClient, c.sessionKey = s.client.sessionKey ∧ ∃ target flags payload fault,
      frame ∈ (c.sendRawWithFlags x target flags payload fault).1 ∧ (op.Plain → flags &&& flagCompressed = 0) := by
  cases op with
  | connect | close | recvCancelled _ => cases move; simp [Writes] at writes
  | send target flags payload fault =>
    cases move
    exact ⟨s.client, rfl, target, flags, payload, fault, sentFrame (fun _ => rfl) writes, id⟩
  | beginFragmented target payload chunkSize =>
    simp only [step] at move
    split at move <;> cases move <;> simp [Writes, Report.written] at writes
  | sendFragment call fault =>
    simp only [step, sendFragment] at move
    split at move
    · contradiction
    split at move
    · split at move
      · cases move; simp [Writes, Report.written] at writes
      · split at move <;> cases move <;>
          exact ⟨s.client, rfl, _, _, _, fault, sentFrame (fun _ => rfl) writes, fun _ => by decide⟩
    · contradiction
  | register r fault =>
    simp only [step, register] at move
    have sent : frame ∈ (VynkorClient.sendRegister x codec { s.client with pluginId := some r.pluginId } r fault).1 := by
      split at move
      · contradiction
      · split at move <;> cases move <;> exact sentFrame (fun _ => rfl) writes
    unfold VynkorClient.sendRegister at sent
    split at sent
    · simp at sent
    · exact ⟨{ s.client with pluginId := some r.pluginId }, rfl, _, _, _, fault, sent, fun _ => Nat.zero_and _⟩
  | recvFrame clock inbox =>
    have pair : s.recvFrame x codec clock inbox = (t, reports) := Option.some.inj move
    have silent : ¬ Writes (s.recvFrame x codec clock inbox).2 frame := recvSilent clock inbox frame
    rw [pair] at silent
    exact absurd writes silent

theorem stepIdle (idle : s.registering = none) (other : ∀ r fault, op ≠ .register r fault)
    (move : s.step x codec op = some (t, reports)) : t.registering = none := by
  cases op with
  | connect | close | send _ _ _ _ => cases move; exact idle
  | recvCancelled prunedAt => cases move; rfl
  | beginFragmented target payload chunkSize =>
    simp only [step] at move
    split at move <;> cases move <;> exact idle
  | sendFragment call fault => exact (sendFragmentKeeps move).2.trans idle
  | register r fault => exact absurd rfl (other r fault)
  | recvFrame clock inbox =>
    have pair : s.recvFrame x codec clock inbox = (t, reports) := Option.some.inj move
    unfold recvFrame at pair
    rcases ran : s.client.recvTurn x clock inbox with ⟨halt | (_ | ⟨flags, payload⟩), after, rest⟩ <;>
      simp only [ran, idle] at pair <;> cases pair <;> rfl

end Steps
end Session
end Vynkor
