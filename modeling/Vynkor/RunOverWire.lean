import Mathlib.Data.List.Forall2
import Vynkor.PluginRun
import Vynkor.TransportAgreement

/-! `run_with` from the bytes of the socket to the hooks and back. The kernel packs an
ack and then its envelopes under the session key; however they are cut on the way,
`serve` runs over those envelopes, and the kernel reads what `serve` sends. -/
namespace Vynkor.Plugin
open Octets (Bytes)
open Text Framing Labelled ExactReader Reassembly Tables

def Resume.taken : Resume → Option Envelope
  | .received (.ok i) => some i.envelope
  | _ => none

def takenOf (resumes : List Resume) : List Envelope := resumes.filterMap Resume.taken

def Moment.data : Moment → Bytes
  | .arrives data => data
  | _ => []

def arrivedOf (moments : List Moment) : Bytes := moments.flatMap Moment.data

section Runs
variable {x : Externals} {codec : Codec} {say : Error → Str} {r : Registration} {l t : Life} {m : Moment}
  {signs emitted : List Sign} {c : VynkorClient} {moments : List Moment}

theorem stepServes (serves : Runs serve Always .registering (resumesOf signs) (effectsOf signs) l.stage)
    (moved : l.step x codec say r m = some (t, emitted)) :
    Runs serve Always .registering (resumesOf (signs ++ emitted)) (effectsOf (signs ++ emitted)) t.stage := by
  rw [resumesAppend, effectsAppend]
  cases stepShape moved with
  | @stays frames client same =>
    have tells := wroteTells frames
    rw [tells.resumes, tells.effects, List.append_nil, List.append_nil, same.1]
    exact serves
  | @resumes base resume frames later resumed client same =>
    obtain ⟨stage, effects, step, rfl, rfl⟩ := resumeMoves resumed
    have told := resumedTells frames resume effects
    rw [told.resumes, told.effects]
    exact .next serves trivial (same.1 ▸ step)
  | @owns target flags payload fault label after =>
    subst after
    have tells := ownTells (t.client.sendRawWithFlags x target flags payload fault).1
    rw [tells.resumes, tells.effects, List.append_nil, List.append_nil]
    exact serves
  | @closes outcome ended fresh after =>
    subst after
    have none : resumesOf [.returned outcome] = [] ∧ effectsOf [.returned outcome] = [] := ⟨rfl, rfl⟩
    rw [none.1, none.2, List.append_nil, List.append_nil]
    exact serves

theorem movesConnection {after : VynkorClient} {frames : List Bytes} (moves : ClientMoves x codec r l after frames) :
    after.transport = l.client.transport ∧ after.streams = l.client.streams ∧ after.webSocket = l.client.webSocket := by
  cases moves with
  | kept | asked _ | pruned _ | sent _ _ => exact ⟨rfl, rfl, rfl⟩
  | turned turn | keyed turn _ =>
    rw [Session.turnKeeps turn]
    exact ⟨rfl, rfl, rfl⟩

def Shut (c : VynkorClient) : Prop := c.streams = false ∧ (c.transport = .ws → c.webSocket = false)

theorem closeShuts (c : VynkorClient) : Shut c.close := by
  unfold Shut VynkorClient.close VynkorClient.closeStreams VynkorClient.closeWebSocket
  cases there : c.streams <;> cases kind : c.transport <;> cases socket : c.webSocket <;> simp [there, kind, socket]

inductive Closing (l : Life) (signs : List Sign) : Prop where
  | running (fresh : l.returned = false) (none : returnsOf signs = [])
  | closed {outcome} (stage : l.stage = .ended outcome) (done : l.returned = true) (one : returnsOf signs = [outcome])
      (shut : Shut l.client)

theorem closingKeeps (closing : Closing l signs) (moved : l.step x codec say r m = some (t, emitted)) :
    Closing t (signs ++ emitted) := by
  cases stepShape moved with
  | @stays frames client same =>
    have still := returnsAppend signs (frames.map .wrote)
    rw [(wroteTells frames).returns, List.append_nil] at still
    cases closing with
    | running fresh none => exact .running (same.2.2.trans fresh) (still.trans none)
    | closed stage done one shut =>
      obtain ⟨transport, streams, socket⟩ := movesConnection client
      refine .closed (same.1.trans stage) (same.2.2.trans done) (still.trans one) ⟨streams.trans shut.1, fun ws => ?_⟩
      exact socket.trans (shut.2 (transport ▸ ws))
  | @resumes base resume frames later resumed client same =>
    obtain ⟨stage, effects, step, rfl, rfl⟩ := resumeMoves resumed
    have still := returnsAppend signs (frames.map .wrote ++ .resumed resume :: effects.map .effect)
    rw [(resumedTells frames resume effects).returns, List.append_nil] at still
    cases closing with
    | running fresh none => exact .running (same.2.trans fresh) (still.trans none)
    | closed ended _ _ _ =>
      rw [same.1, ended] at step
      cases step
  | @owns target flags payload fault label after =>
    subst after
    have still := returnsAppend signs ((t.client.sendRawWithFlags x target flags payload fault).1.map .own)
    rw [(ownTells _).returns, List.append_nil] at still
    cases closing with
    | running fresh none => exact .running fresh (still.trans none)
    | closed stage done one shut => exact .closed stage done (still.trans one) shut
  | @closes outcome ended fresh after =>
    subst after
    cases closing with
    | running _ none => exact .closed ended rfl (by rw [returnsAppend, none]; rfl) (closeShuts _)
    | closed _ done _ _ => exact absurd (fresh.symm.trans done) nofun

end Runs

def Stage.sending : Stage → Bool
  | .ponging | .acking _ | .replying => true
  | _ => false

def Stage.done : Stage → Bool
  | .closing _ | .initFailed _ | .ended _ => true
  | _ => false

structure Emits (s t : Stage) (effects : List Effect) : Prop where
  moved : t ≠ .registering
  done : s.done = true → t.done = true
  sent : (sentBy effects = [] ∧ t.sending = false) ∨ ∃ e, sentBy effects = [e] ∧ t.sending = true ∧ s.done = false

theorem finishEmits {s t : Stage} {outcome : Except Thrown Unit} {effects : List Effect}
    (moved : Stage.finish outcome = some (t, effects)) : Emits s t effects := by
  cases moved
  exact ⟨nofun, fun _ => rfl, .inl ⟨rfl, rfl⟩⟩

theorem closeEmits {s t : Stage} {pending : Option Thrown} {effects : List Effect}
    (moved : Stage.close pending = some (t, effects)) : Emits s t effects := by
  cases moved
  exact ⟨nofun, fun _ => rfl, .inl ⟨rfl, rfl⟩⟩

theorem silentEmits {s t : Stage} {effects : List Effect} (moved : t ≠ .registering) (going : s.done = false)
    (silent : sentBy effects = []) (idle : t.sending = false) : Emits s t effects :=
  ⟨moved, fun done => absurd (going.symm.trans done) Bool.false_ne_true, .inl ⟨silent, idle⟩⟩

theorem sendsEmits {s t : Stage} {effects : List Effect} {e : Envelope} (moved : t ≠ .registering) (going : s.done = false)
    (one : sentBy effects = [e]) (sending : t.sending = true) : Emits s t effects :=
  ⟨moved, fun done => absurd (going.symm.trans done) Bool.false_ne_true, .inr ⟨e, one, sending, going⟩⟩

theorem answerEmits {s t : Stage} {reply : Option Envelope} {effects : List Effect} (going : s.done = false)
    (moved : Stage.answer reply = some (t, effects)) : Emits s t effects := by
  cases reply with
  | none =>
    cases moved
    exact silentEmits (by simp) going rfl rfl
  | some reply =>
    cases moved
    exact sendsEmits (by simp) going rfl rfl

theorem receiveEmits {t : Stage} {outcome : Except Thrown Inbound} {effects : List Effect}
    (moved : Stage.receive outcome = some (t, effects)) : Emits .receiving t effects := by
  cases outcome with
  | error e => exact closeEmits moved
  | ok i =>
    cases kindOf i with
    | ping kind =>
      simp only [Stage.receive, kind] at moved
      cases moved
      exact sendsEmits (by simp) rfl rfl rfl
    | event kind =>
      simp only [Stage.receive, kind] at moved
      cases moved
      exact silentEmits (by simp) rfl rfl rfl
    | pluginShutdown kind =>
      simp only [Stage.receive, kind] at moved
      exact closeEmits moved
    | other receives _ _ _ _ =>
      rw [receives] at moved
      cases moved
      exact silentEmits (by simp) rfl rfl rfl

theorem stepEmits {s t : Stage} {resume : Resume} {effects : List Effect} (moved : s.step resume = some (t, effects)) :
    Emits s t effects := by
  have goesOn (s : Stage) (going : s.done = false) : Emits s .receiving [] := silentEmits (by simp) going rfl rfl
  cases s with
  | registering =>
    cases resume with
    | registered outcome =>
      cases outcome with
      | error e => exact finishEmits moved
      | ok ack =>
        simp only [Stage.step, Stage.register] at moved
        split at moved
        · cases moved
          exact silentEmits (by simp) rfl rfl rfl
        · exact finishEmits moved
    | initialised _ | received _ | sent _ | handled _ | shut _ => cases moved
  | initialising =>
    cases resume with
    | initialised outcome =>
      cases outcome with
      | error e =>
        cases moved
        exact silentEmits (by simp) rfl rfl rfl
      | ok _ =>
        cases moved
        exact goesOn _ rfl
    | registered _ | received _ | sent _ | handled _ | shut _ => cases moved
  | initFailed e =>
    cases resume with
    | shut _ => exact finishEmits moved
    | registered _ | initialised _ | received _ | sent _ | handled _ => cases moved
  | receiving =>
    cases resume with
    | received outcome => exact receiveEmits moved
    | registered _ | initialised _ | sent _ | handled _ | shut _ => cases moved
  | ponging | replying =>
    cases resume with
    | sent outcome =>
      cases outcome with
      | error e => exact closeEmits moved
      | ok _ =>
        cases moved
        exact goesOn _ rfl
    | registered _ | initialised _ | received _ | handled _ | shut _ => cases moved
  | onEvent event =>
    cases resume with
    | handled hook =>
      cases hook with
      | error e =>
        simp only [Stage.step, Stage.handledEvent] at moved
        split at moved
        · cases moved
          exact goesOn _ rfl
        · exact closeEmits moved
      | ok reply =>
        cases moved
        exact sendsEmits (by simp) rfl rfl rfl
    | registered _ | initialised _ | received _ | sent _ | shut _ => cases moved
  | acking reply =>
    cases resume with
    | sent outcome =>
      cases outcome with
      | error e => exact closeEmits moved
      | ok _ => exact answerEmits rfl moved
    | registered _ | initialised _ | received _ | handled _ | shut _ => cases moved
  | onMessage =>
    cases resume with
    | handled hook =>
      cases hook with
      | error e => exact closeEmits moved
      | ok reply => exact answerEmits rfl moved
    | registered _ | initialised _ | received _ | sent _ | shut _ => cases moved
  | closing pending =>
    cases resume with
    | shut outcome =>
      cases outcome with
      | error e => exact finishEmits moved
      | ok _ => cases pending <;> exact finishEmits moved
    | registered _ | initialised _ | received _ | sent _ | handled _ => cases moved
  | ended outcome => cases moved

theorem goingBefore {s t : Stage} {effects : List Effect} (emits : Emits s t effects) (going : t.done = false) : s.done = false := by
  cases done : s.done with
  | false => rfl
  | true => exact absurd (going.symm.trans (emits.done done)) Bool.false_ne_true

theorem sendingResumes {s t : Stage} {resume : Resume} {effects : List Effect} (sending : s.sending = true)
    (moved : s.step resume = some (t, effects)) :
    ∃ outcome, resume = .sent outcome ∧ ∀ e, outcome = .error e → t.done = true := by
  cases s with
  | ponging | acking _ | replying =>
    cases resume with
    | sent outcome =>
      refine ⟨outcome, rfl, fun e failed => ?_⟩
      subst failed
      cases moved
      rfl
    | registered _ | initialised _ | received _ | handled _ | shut _ => cases moved
  | registering | initialising | initFailed _ | receiving | onEvent _ | onMessage | closing _ | ended _ => cases sending

structure Posted (x : Externals) (codec : Codec) (key : Option Bytes) (envelope : Envelope) (frame : Bytes) : Prop where
  packed : ∃ target compress, packFrame x target (codec.serialize envelope) 0 key compress = .ok frame
  faithful : codec.parse (codec.serialize envelope) = .ok envelope

def sessionKeyOf (x : Externals) (secret : Option Bytes) (pluginId : Str) (nonce : Bytes) : Except Error (Option Bytes) :=
  match secret with
  | none => .ok none
  | some secret =>
    if secret ≠ [] ∧ nonce ≠ [] then (deriveSessionKey x secret nonce pluginId).map some else .ok none

structure Kernel (x : Externals) (codec : Codec) (secret : Option Bytes) (pluginId : Str) where
  ack : PluginRegisterAck
  key : Option Bytes
  agreed : sessionKeyOf x secret pluginId ack.sessionNonce = .ok key
  ackFrame : Bytes
  answers : Posted x codec none ⟨some (.pluginRegisterAck ack)⟩ ackFrame
  envelopes : List Envelope
  frames : List Bytes
  posted : List.Forall₂ (Posted x codec key) envelopes frames

def Kernel.stream {x : Externals} {codec : Codec} {secret : Option Bytes} {pluginId : Str} (k : Kernel x codec secret pluginId) :
    Bytes := k.ackFrame ++ k.frames.flatten

def ReadsAs (x : Externals) (codec : Codec) (key : Option Bytes) (envelope : Envelope) (frame : Bytes) : Prop :=
  ∀ rest, (asyncReadFrame x key).run (frame ++ rest) = (.ok (announced key 0, codec.serialize envelope), rest)

def wired (secret : Option Bytes) (pluginId : Option Str) (key : Option Bytes) : VynkorClient :=
  { VynkorClient.connectWithSecret secret with pluginId, sessionKey := key }

section Wire
variable {x : Externals} {codec : Codec} {secret : Option Bytes} {key : Option Bytes} {pluginId : Option Str}
  {envelope : Envelope} {frame : Bytes}

theorem packedReads (lossless : Lossless x) {target : Str} {compress : Bool}
    (packed : packFrame x target (codec.serialize envelope) 0 key compress = .ok frame) : ReadsAs x codec key envelope frame := by
  have fits := (packFrameOk packed).1
  have valid : (Message.mk target (codec.serialize envelope) 0 key compress).Valid :=
    ⟨fits, Nat.two_pow_pos 16, Nat.zero_and _, Nat.zero_and _⟩
  exact fun rest => (packedCarries valid packed (lossless _ fits)).read key rest (.inr rfl)

theorem announcedPlain (key : Option Bytes) :
    announced key 0 &&& flagFragmented = 0 ∧ announced key 0 &&& flagRawBinary = 0 := by
  cases key with
  | none => exact ⟨Nat.zero_and _, Nat.zero_and _⟩
  | some key =>
    have set : announced (some key) 0 = flagMacPresent := Nat.zero_or _
    rw [set]
    exact ⟨by decide, by decide⟩

theorem wiredPrune (now : Time) : (wired secret pluginId key).prune now = wired secret pluginId key := rfl

theorem wiredTurn (secret : Option Bytes) (pluginId : Option Str) (clock : Arrival) (inbox : Inbox) {value : Nat × Bytes} {left : Bytes}
    (read : (asyncReadFrame x key).run inbox.stream = (.ok value, left)) (whole : value.1 &&& flagFragmented = 0) :
    (wired secret pluginId key).recvTurn x clock inbox =
      (.ok (some value), wired secret pluginId key, { inbox with stream := left }) := by
  have next : (wired secret pluginId key).nextFrame x inbox = (.ok value, { inbox with stream := left }) := by
    change (((asyncReadFrame x key).run inbox.stream).1, { inbox with stream := ((asyncReadFrame x key).run inbox.stream).2 }) = _
    rw [read]
  simp only [VynkorClient.recvTurn, wiredPrune, next, VynkorClient.acceptFrame, whole, ne_eq, not_true_eq_false, if_false]
  rfl

theorem wiredWaits (secret : Option Bytes) (pluginId : Option Str) (clock : Arrival) (inbox : Inbox)
    (waits : ((asyncReadFrame x key).run inbox.stream).1 = .error .incomplete) :
    ∃ rest, (wired secret pluginId key).recvTurn x clock inbox = (.error .incomplete, wired secret pluginId key, rest) := by
  have next : (wired secret pluginId key).nextFrame x inbox =
      (.error .incomplete, { inbox with stream := ((asyncReadFrame x key).run inbox.stream).2 }) := by
    change (((asyncReadFrame x key).run inbox.stream).1, { inbox with stream := ((asyncReadFrame x key).run inbox.stream).2 }) = _
    rw [waits]
  simp only [VynkorClient.recvTurn, wiredPrune, next]
  exact ⟨_, rfl⟩

theorem wiredSends (x : Externals) (codec : Codec) (secret key : Option Bytes) (pluginId : Option Str) (envelope : Envelope)
    (fault : Option Str) :
    (∃ e, (wired secret pluginId key).send x codec (lit "kernel") envelope fault = ([], .error e) ∧
      packFrame x (lit "kernel") (codec.serialize envelope) 0 key true = .error e) ∨
      ∃ frame outcome, (wired secret pluginId key).send x codec (lit "kernel") envelope fault = ([frame], outcome) ∧
        packFrame x (lit "kernel") (codec.serialize envelope) 0 key true = .ok frame := by
  have sends : (wired secret pluginId key).send x codec (lit "kernel") envelope fault =
    (wired secret pluginId key).sendUds x (lit "kernel") 0 (codec.serialize envelope) fault := rfl
  have there : (wired secret pluginId key).streams = true := rfl
  have keyed : (wired secret pluginId key).sessionKey = key := rfl
  rw [sends]
  unfold VynkorClient.sendUds
  rw [keyed]
  cases packed : packFrame x (lit "kernel") (codec.serialize envelope) 0 key true with
  | error e => exact .inl ⟨e, rfl, rfl⟩
  | ok frame =>
    simp only [there, if_true]
    cases fault <;> exact .inr ⟨frame, _, rfl, rfl⟩

end Wire

/- How many of the sent envelopes are on the wire: all, or all but the one that is
being sent, or that could not be. -/
inductive Progress (stage : Stage) (toSend : Option Envelope) (sents : List Envelope) (count : Nat) : Prop where
  | clear (none : toSend = none) (idle : stage.sending = false) (all : count = sents.length)
  | pending {front e} (one : toSend = some e) (sending : stage.sending = true) (last : sents = front ++ [e])
      (others : count = front.length)
  | unsent {front e} (none : toSend = none) (done : stage.done = true) (last : sents = front ++ [e])
      (others : count = front.length)

structure Outgoing (x : Externals) (codec : Codec) (secret : Option Bytes) (r : Registration) (key : Option Bytes)
    (stage : Stage) (asked : Bool) (toSend : Option Envelope) (signs : List Sign) : Prop where
  split : ∃ request replies, writtenOf signs = request ++ replies ∧ request.length ≤ 1 ∧
    (∀ frame ∈ request, ∃ envelope, (wired secret (some r.pluginId) none).registerPayload r = .ok envelope ∧
      ReadsAs x codec none envelope frame) ∧
    (stage = .registering → replies = [] ∧ (asked = false → request = [])) ∧
    List.Forall₂ (ReadsAs x codec key) ((sentBy (effectsOf signs)).take replies.length) replies ∧
    Progress stage toSend (sentBy (effectsOf signs)) replies.length

section Outgoing
variable {x : Externals} {codec : Codec} {say : Error → Str} {secret : Option Bytes} {r : Registration} {key : Option Bytes}
  {stage t : Stage} {asked : Bool} {toSend : Option Envelope} {signs emitted : List Sign} {effects : List Effect}
  {resume : Resume}

theorem resumedProgress {sents : List Envelope} (emits : Emits stage t effects) :
    Progress t (sentBy effects).head? (sents ++ sentBy effects) sents.length := by
  rcases emits.sent with ⟨none, idle⟩ | ⟨e, one, sending, -⟩
  · rw [none]
    exact .clear rfl idle (by rw [List.append_nil])
  · rw [one]
    exact .pending rfl sending rfl rfl

theorem unsentProgress {sents front : List Envelope} {e : Envelope} (emits : Emits stage t effects) (done : stage.done = true)
    (last : sents = front ++ [e]) : Progress t (sentBy effects).head? (sents ++ sentBy effects) front.length := by
  rcases emits.sent with ⟨none, -⟩ | ⟨_, -, -, going⟩
  · rw [none, List.append_nil]
    exact .unsent rfl (emits.done done) last rfl
  · exact absurd (going.symm.trans done) nofun

theorem sentAppend (effects more : List Effect) : sentBy (effects ++ more) = sentBy effects ++ sentBy more :=
  List.filterMap_append

theorem resumeOutgoing {asked' : Bool} (out : Outgoing x codec secret r key stage asked toSend signs)
    (move : stage.step resume = some (t, effects)) (other : ∀ outcome, resume ≠ .sent outcome)
    (told : Tells [] [] [resume] effects emitted) :
    Outgoing x codec secret r key t asked' (sentBy effects).head? (signs ++ emitted) := by
  obtain ⟨request, replies, written, few, requests, -, reads, progress⟩ := out.split
  have emits := stepEmits move
  have silent : writtenOf (signs ++ emitted) = request ++ replies := by
    rw [writtenAppend, told.written, List.append_nil, written]
  refine ⟨request, replies, silent, few, requests, fun back => absurd back emits.moved, ?_, ?_⟩
  · rw [effectsAppend, told.effects, sentAppend]
    have bound : replies.length ≤ (sentBy (effectsOf signs)).length := by
      cases progress with
      | clear _ _ all => exact Nat.le_of_eq all
      | pending _ _ last others | unsent _ _ last others =>
        rw [last, others, List.length_append]
        exact Nat.le_add_right _ _
    rw [List.take_append_of_le_length bound]
    exact reads
  · rw [effectsAppend, told.effects, sentAppend]
    cases progress with
    | clear none idle all =>
      rw [all]
      exact resumedProgress emits
    | pending one sending last others =>
      obtain ⟨outcome, sent, -⟩ := sendingResumes sending move
      exact absurd sent (other outcome)
    | unsent none done last others =>
      rw [others]
      exact unsentProgress emits done last

theorem doneIdle (done : stage.done = true) : stage.sending = false := by
  cases stage <;> first | rfl | cases done

theorem sendOutgoing {envelope : Envelope} {frames : List Bytes} {outcome : Except Thrown Unit}
    (out : Outgoing x codec secret r key stage asked (some envelope) signs)
    (move : stage.step (.sent outcome) = some (t, effects)) (told : Tells frames frames [.sent outcome] effects emitted)
    (sent : (frames = [] ∧ ∃ e, outcome = .error e) ∨ ∃ frame, frames = [frame] ∧ ReadsAs x codec key envelope frame) :
    Outgoing x codec secret r key t asked (sentBy effects).head? (signs ++ emitted) := by
  obtain ⟨request, replies, written, few, requests, -, reads, progress⟩ := out.split
  have emits := stepEmits move
  have wrote : writtenOf (signs ++ emitted) = request ++ (replies ++ frames) := by
    rw [writtenAppend, told.written, written, List.append_assoc]
  obtain ⟨front, sending, last, others⟩ : ∃ front, stage.sending = true ∧ sentBy (effectsOf signs) = front ++ [envelope] ∧
      replies.length = front.length := by
    cases progress with
    | clear none _ _ | unsent none _ _ _ => cases none
    | pending one sending last others =>
      cases one
      exact ⟨_, sending, last, others⟩
  rw [last, others, List.take_left] at reads
  have sents : sentBy (effectsOf (signs ++ emitted)) = front ++ [envelope] ++ sentBy effects := by
    rw [effectsAppend, told.effects, sentAppend, last]
  refine ⟨request, replies ++ frames, wrote, few, requests, fun back => absurd back emits.moved, ?_⟩
  rw [sents]
  rcases sent with ⟨rfl, failure, failed⟩ | ⟨frame, rfl, read⟩
  · obtain ⟨_, same, ends⟩ := sendingResumes sending move
    cases same
    have done := ends failure failed
    have nothing : sentBy effects = [] := by
      rcases emits.sent with ⟨none, -⟩ | ⟨_, -, again, -⟩
      · exact none
      · exact absurd ((doneIdle done).symm.trans again) nofun
    rw [nothing, List.append_nil, List.append_nil, others, List.take_left]
    exact ⟨reads, .unsent rfl done rfl rfl⟩
  · have all : (replies ++ [frame]).length = (front ++ [envelope]).length := by simp [others]
    rw [all, List.take_left]
    exact ⟨List.rel_append reads (.cons read .nil), resumedProgress emits⟩

theorem asideOutgoing (out : Outgoing x codec secret r key stage asked toSend signs) (written : writtenOf emitted = [])
    (effects : effectsOf emitted = []) : Outgoing x codec secret r key stage asked toSend (signs ++ emitted) := by
  obtain ⟨split⟩ := out
  refine ⟨?_⟩
  rw [effectsAppend, writtenAppend, effects, written, List.append_nil, List.append_nil]
  exact split

theorem unaskedSilent (out : Outgoing x codec secret r key .registering false toSend signs) :
    writtenOf signs = [] ∧ toSend = none ∧ sentBy (effectsOf signs) = [] := by
  obtain ⟨request, replies, written, -, -, early, -, progress⟩ := out.split
  obtain ⟨rfl, first⟩ := early rfl
  cases first rfl
  cases progress with
  | clear none _ all => exact ⟨written, none, List.eq_nil_of_length_eq_zero all.symm⟩
  | pending _ sending _ _ => cases sending
  | unsent _ done _ _ => cases done

theorem wiredRegisters (codec : Codec) (secret : Option Bytes) (r : Registration) (lossless : Lossless x) (fault : Option Str) :
    let frames := ((wired secret (some r.pluginId) none).sendRegister x codec r fault).1
    frames.length ≤ 1 ∧ ∀ frame ∈ frames, ∃ envelope, (wired secret (some r.pluginId) none).registerPayload r = .ok envelope ∧
      ReadsAs x codec none envelope frame := by
  unfold VynkorClient.sendRegister
  cases made : (wired secret (some r.pluginId) none).registerPayload r with
  | error e => exact ⟨Nat.zero_le 1, nofun⟩
  | ok envelope =>
    simp only
    rcases wiredSends x codec secret none (some r.pluginId) envelope fault with
      ⟨e, unsent, -⟩ | ⟨frame, outcome, sent, packed⟩
    · rw [unsent]
      exact ⟨Nat.zero_le 1, nofun⟩
    · rw [sent]
      refine ⟨Nat.le_refl 1, fun other member => ⟨envelope, rfl, ?_⟩⟩
      rw [List.mem_singleton.mp member]
      exact packedReads lossless packed

theorem askOutgoing {frames : List Bytes} {asked' : Bool} {toSend' : Option Envelope}
    (out : Outgoing x codec secret r key .registering false toSend signs) (wrote : writtenOf emitted = frames)
    (quiet : sentBy (effectsOf emitted) = []) (few : frames.length ≤ 1)
    (requests : ∀ frame ∈ frames, ∃ envelope, (wired secret (some r.pluginId) none).registerPayload r = .ok envelope ∧
      ReadsAs x codec none envelope frame)
    (asks : t = .registering → asked' = true) (idle : t.sending = false) (none : toSend' = none) :
    Outgoing x codec secret r key t asked' toSend' (signs ++ emitted) := by
  obtain ⟨silent, -, nothing⟩ := unaskedSilent out
  have sents : sentBy (effectsOf (signs ++ emitted)) = [] := by
    rw [effectsAppend, sentAppend, nothing, quiet, List.append_nil]
  refine ⟨frames, [], ?_, few, requests, fun back => ⟨rfl, fun unasked => ?_⟩, ?_⟩
  · rw [writtenAppend, silent, wrote, List.nil_append, List.append_nil]
  · rw [asks back] at unasked
    cases unasked
  · rw [sents]
    exact ⟨.nil, .clear none idle rfl⟩

end Outgoing

section Position
variable {x : Externals} {codec : Codec} {say : Error → Str} {secret : Option Bytes} {r : Registration}
  {k : Kernel x codec secret r.pluginId} {l t : Life} {arrived : Bytes} {taken : List Envelope}

inductive Position (k : Kernel x codec secret r.pluginId) (l : Life) (arrived : Bytes) (taken : List Envelope) : Prop where
  | unasked (stage : l.stage = .registering) (first : l.asked = false) (client : l.client = wired secret none none)
      (unread : arrived = l.inbox.stream) (none : taken = [])
  | asked (stage : l.stage = .registering) (second : l.asked = true) (client : l.client = wired secret (some r.pluginId) none)
      (unread : arrived = l.inbox.stream) (none : taken = [])
  | serving (n : Nat) (stage : l.stage ≠ .registering)
      (client : l.returned = false → l.client = wired secret (some r.pluginId) k.key)
      (unread : l.stage.done = false → arrived = k.ackFrame ++ (k.frames.take n).flatten ++ l.inbox.stream)
      (count : taken = k.envelopes.take n)
  | failed {outcome} (stage : l.stage = .ended outcome) (none : taken = [])

theorem nextDecoded {key : Option Bytes} {envelope : Envelope} {frame : Bytes} (posted : Posted x codec key envelope frame) :
    VynkorClient.decodeEnvelope codec (announced key 0) (codec.serialize envelope) = .ok envelope := by
  simp [VynkorClient.decodeEnvelope, (announcedPlain key).2, posted.faithful, Except.mapError]

theorem registrationAnswered (k : Kernel x codec secret r.pluginId) :
    Session.answerRegistration x codec (wired secret (some r.pluginId) none) r.pluginId (announced none 0)
        (codec.serialize ⟨some (.pluginRegisterAck k.ack)⟩) = (.ok k.ack, wired secret (some r.pluginId) k.key) := by
  have agreed := k.agreed
  have held : (wired secret (some r.pluginId) none).secret = secret := rfl
  simp only [Session.answerRegistration, nextDecoded k.answers, VynkorClient.handleRegisterResponse, VynkorClient.handleAck,
    VynkorClient.applySessionNonce, held]
  unfold sessionKeyOf at agreed
  cases secret with
  | none =>
    have unkeyed : k.key = none := (Except.ok.inj agreed).symm
    by_cases nonce : k.ack.sessionNonce = [] <;> simp [nonce, unkeyed]
  | some own =>
    by_cases nonce : k.ack.sessionNonce = []
    · simp only [nonce, ne_eq, not_true_eq_false, and_false, if_false, Except.ok.injEq] at agreed ⊢
      rw [← agreed]
    · by_cases empty : own = []
      · simp only [empty, nonce, ne_eq, not_true_eq_false, not_false_eq_true, false_and, if_false, if_true,
          Except.ok.injEq] at agreed ⊢
        rw [← agreed]
      · simp only [nonce, empty, ne_eq, not_false_eq_true, and_self, if_true] at agreed ⊢
        cases derived : deriveSessionKey x own k.ack.sessionNonce r.pluginId with
        | error e => simp [derived, Except.map] at agreed
        | ok key =>
          simp only [derived, Except.map, Except.ok.injEq] at agreed ⊢
          rw [← agreed]
          rfl

theorem takeNext {α : Type} {list rest : List α} {n : Nat} {a : α} (next : list.drop n = a :: rest) :
    list.take (n + 1) = list.take n ++ [a] := by
  rw [List.take_add, next]
  rfl

theorem nextReads (lossless : Lossless x) {key : Option Bytes} {envelopes : List Envelope} {frames : List Bytes}
    (posted : List.Forall₂ (Posted x codec key) envelopes frames) {n : Nat} {unread future : Bytes}
    (ahead : unread ++ future = (frames.drop n).flatten) :
    ((asyncReadFrame x key).run unread).1 = .error .incomplete ∨
      ∃ envelope frame left, (asyncReadFrame x key).run unread =
          (.ok (announced key 0, codec.serialize envelope), left) ∧ unread = frame ++ left ∧
        VynkorClient.decodeEnvelope codec (announced key 0) (codec.serialize envelope) = .ok envelope ∧
        frames.take (n + 1) = frames.take n ++ [frame] ∧ envelopes.take (n + 1) = envelopes.take n ++ [envelope] := by
  have rest := List.forall₂_drop n posted
  generalize spoken : envelopes.drop n = es at rest
  generalize framed : frames.drop n = fs at rest ahead
  cases rest with
  | nil =>
    have nothing : unread = [] := (List.append_eq_nil_iff.mp ahead).1
    exact .inl ((asyncIncomplete key).mpr (.inl (by rw [nothing]; decide)))
  | @cons envelope frame later left posted more =>
    obtain ⟨target, compress, packed⟩ := posted.packed
    rcases Reader.readsOrWaits (packedReads lossless packed) ahead with waits | ⟨behind, read, after⟩
    · exact .inl waits
    · have whole : unread = frame ++ behind := by
        rw [List.flatten_cons, ← after, ← List.append_assoc] at ahead
        exact List.append_cancel_right ahead
      exact .inr ⟨envelope, frame, behind, read, whole, nextDecoded posted, takeNext framed, takeNext spoken⟩

end Position

section Run
variable {x : Externals} {codec : Codec} {say : Error → Str} {secret : Option Bytes} {r : Registration}
  {k : Kernel x codec secret r.pluginId} {l t : Life} {moments : List Moment} {signs emitted : List Sign}

def Lost (say : Error → Str) (l : Life) (e : Thrown) : Prop :=
  (l.finished = true ∧ e = Life.thrown say .incompleteRead) ∨ e = Life.thrown say .frameReadTimeout

theorem lostStays {e : Thrown} (lost : Lost say l e) (finished : l.finished = true → t.finished = true) : Lost say t e :=
  lost.imp_left fun ended => ⟨finished ended.1, ended.2⟩

structure Kept (say : Error → Str) (k : Kernel x codec secret r.pluginId) (moments : List Moment) (signs : List Sign)
    (l : Life) : Prop where
  position : Position k l (arrivedOf moments) (takenOf (resumesOf signs))
  lost : ∀ e, .received (.error e) ∈ resumesOf signs → Lost say l e
  outgoing : Outgoing x codec secret r k.key l.stage l.asked l.toSend signs
  last : l.returned = true → ∃ outcome, l.stage = .ended outcome

def LeavesStream (_ : Life) : Moment → Prop
  | .hookReads _ | .hookCancelled _ _ => False
  | _ => True

theorem arrivedAppend (moments : List Moment) (m : Moment) : arrivedOf (moments ++ [m]) = arrivedOf moments ++ m.data := by
  simp [arrivedOf]

theorem takenAppend (resumes : List Resume) (resume : Resume) :
    takenOf (resumes ++ [resume]) = takenOf resumes ++ resume.taken.toList := by
  unfold takenOf
  rw [List.filterMap_append]
  cases h : resume.taken <;> simp [h]

theorem keptResume {base : Life} {resume : Resume} {m : Moment} (kept : Kept say k moments signs l)
    (moved : base.resume resume = some (t, emitted)) (stage : base.stage = l.stage)
    (other : ∀ outcome, resume ≠ .sent outcome) (silent : m.data = []) (running : base.returned = false)
    (finished : l.finished = true → base.finished = true)
    (lost : ∀ e, resume = .received (.error e) → Lost say base e)
    (position : Position k t (arrivedOf moments) (takenOf (resumesOf signs) ++ resume.taken.toList)) :
    Kept say k (moments ++ [m]) (signs ++ emitted) t := by
  obtain ⟨next, effects, step, rfl, rfl⟩ := resumeMoves moved
  have told := resumedTells [] resume effects
  rw [List.map_nil, List.nil_append] at told
  rw [stage] at step
  refine ⟨?_, fun e member => ?_, resumeOutgoing kept.outgoing step other told, fun returned => ?_⟩
  · rw [arrivedAppend, silent, List.append_nil, resumesAppend, told.resumes, takenAppend]
    exact position
  · rw [resumesAppend, told.resumes] at member
    rcases List.mem_append.mp member with before | now
    · exact lostStays (kept.lost e before) finished
    · exact lost e (List.mem_singleton.mp now).symm
  · exact absurd (running.symm.trans returned) nofun

theorem runningStage (kept : Kept say k moments signs l) (going : ∀ outcome, l.stage ≠ .ended outcome) : l.returned = false := by
  cases returned : l.returned with
  | false => rfl
  | true =>
    obtain ⟨outcome, ended⟩ := kept.last returned
    exact absurd ended (going outcome)

theorem keptRegistering {clock : Arrival} {now : Nat}
    (lossless : Lossless x) (kept : Kept say k moments signs l) (ahead : arrivedOf moments <+: k.stream)
    (stage : l.stage = .registering) (client : l.client = wired secret (some r.pluginId) none)
    (unread : arrivedOf moments = l.inbox.stream) (nothing : takenOf (resumesOf signs) = [])
    (moved : l.turns x codec say r clock now = some (t, emitted)) :
    Kept say k (moments ++ [.turns clock now]) (signs ++ emitted) t := by
  have running := runningStage kept (by rw [stage]; exact nofun)
  obtain ⟨future, whole⟩ := ahead
  rw [unread] at whole
  obtain ⟨target, compress, packed⟩ := k.answers.packed
  unfold Life.turns at moved
  split at moved
  · rw [client] at moved
    rcases Reader.readsOrWaits (packedReads lossless packed) whole with waits | ⟨left, read, after⟩
    · obtain ⟨rest, turn⟩ := wiredWaits secret (some r.pluginId) clock l.inbox waits
      simp only [turn] at moved
      split at moved
      · simp only [Life.raised, stage] at moved
        refine keptResume kept moved stage.symm nofun rfl running id nofun ?_
        obtain ⟨next, effects, step, rfl, -⟩ := resumeMoves moved
        cases step
        exact .failed rfl (by simpa [Resume.taken] using nothing)
      · contradiction
    · have turn := wiredTurn secret (some r.pluginId) clock l.inbox read (announcedPlain none).1
      simp only [turn, Life.got, stage, registrationAnswered k] at moved
      refine keptResume kept moved stage.symm nofun rfl running id nofun ?_
      obtain ⟨next, effects, step, rfl, -⟩ := resumeMoves moved
      have consumed : l.inbox.stream = k.ackFrame ++ left := by
        rw [Kernel.stream, ← after, ← List.append_assoc] at whole
        exact List.append_cancel_right whole
      refine .serving 0 (stepEmits step).moved (fun _ => rfl) (fun _ => ?_) ?_
      · rw [unread, consumed]
        simp
      · simpa [Resume.taken] using nothing
  · contradiction

theorem unreadAhead {n : Nat} (ahead : arrivedOf moments <+: k.stream)
    (unread : arrivedOf moments = k.ackFrame ++ (k.frames.take n).flatten ++ l.inbox.stream) :
    ∃ future, l.inbox.stream ++ future = (k.frames.drop n).flatten := by
  obtain ⟨future, whole⟩ := ahead
  have cut : k.frames.flatten = (k.frames.take n).flatten ++ (k.frames.drop n).flatten := by
    rw [← List.flatten_append, List.take_append_drop]
  rw [unread, Kernel.stream, cut, List.append_assoc, List.append_assoc] at whole
  exact ⟨future, List.append_cancel_left (List.append_cancel_left whole)⟩

theorem keptReceiving {clock : Arrival} {now n : Nat}
    (lossless : Lossless x) (kept : Kept say k moments signs l) (ahead : arrivedOf moments <+: k.stream)
    (stage : l.stage = .receiving) (client : l.client = wired secret (some r.pluginId) k.key)
    (unread : arrivedOf moments = k.ackFrame ++ (k.frames.take n).flatten ++ l.inbox.stream)
    (count : takenOf (resumesOf signs) = k.envelopes.take n)
    (moved : l.turns x codec say r clock now = some (t, emitted)) :
    Kept say k (moments ++ [.turns clock now]) (signs ++ emitted) t := by
  have running := runningStage kept (by rw [stage]; exact nofun)
  obtain ⟨future, behind⟩ := unreadAhead ahead unread
  unfold Life.turns at moved
  split at moved
  · rw [client] at moved
    rcases nextReads lossless k.posted behind with waits | ⟨envelope, frame, left, read, consumed, decoded, frames, envelopes⟩
    · obtain ⟨rest, turn⟩ := wiredWaits secret (some r.pluginId) clock l.inbox waits
      simp only [turn] at moved
      split at moved
      · rename_i ended
        simp only [Life.raised, stage] at moved
        refine keptResume kept moved stage.symm nofun rfl running id (fun e same => ?_) ?_
        · cases same
          exact .inl ⟨ended, rfl⟩
        · obtain ⟨next, effects, step, rfl, -⟩ := resumeMoves moved
          exact .serving n (stepEmits step).moved (fun _ => rfl) (fun _ => unread) (by simpa [Resume.taken] using count)
      · contradiction
    · have turn := wiredTurn secret (some r.pluginId) clock l.inbox read (announcedPlain k.key).1
      simp only [turn, Life.got, stage, decoded] at moved
      refine keptResume kept moved stage.symm nofun rfl running id nofun ?_
      obtain ⟨next, effects, step, rfl, -⟩ := resumeMoves moved
      refine .serving (n + 1) (stepEmits step).moved (fun _ => rfl) (fun _ => ?_) ?_
      · rw [unread, consumed, frames]
        simp
      · rw [count, envelopes]
        rfl
  · contradiction

theorem readsReceiving (reads : l.reads = true) (stage : l.stage ≠ .registering) : l.stage = .receiving := by
  unfold Life.reads at reads
  split at reads
  · rename_i registering
    exact absurd registering stage
  · assumption
  · contradiction

theorem keptTurns {clock : Arrival} {now : Nat}
    (lossless : Lossless x) (kept : Kept say k moments signs l) (ahead : arrivedOf moments <+: k.stream)
    (moved : l.turns x codec say r clock now = some (t, emitted)) :
    Kept say k (moments ++ [.turns clock now]) (signs ++ emitted) t := by
  have reads : l.reads = true := by
    unfold Life.turns at moved
    split at moved
    · assumption
    · contradiction
  cases kept.position with
  | unasked stage first _ _ _ => simp [Life.reads, stage, first] at reads
  | asked stage _ client unread nothing => exact keptRegistering lossless kept ahead stage client unread nothing moved
  | serving n stage client unread count =>
    have receiving := readsReceiving reads stage
    have running := runningStage kept (by rw [receiving]; exact nofun)
    exact keptReceiving lossless kept ahead receiving (client running) (unread (by rw [receiving]; rfl)) count moved
  | failed stage _ => simp [Life.reads, stage] at reads

theorem keptStalls {clock : Arrival} {gone : Nat} (kept : Kept say k moments signs l)
    (moved : l.stalls x say clock gone = some (t, emitted)) : Kept say k (moments ++ [.stalls clock gone]) (signs ++ emitted) t := by
  unfold Life.stalls at moved
  split at moved
  · rename_i ready
    split at moved
    · rename_i c left ran
      have pruned : c = l.client.prune clock.prunedAt := Session.stoppedPrunes (Session.turnCases ran)
      cases kept.position with
      | unasked stage first _ _ _ => simp [Life.reads, stage, first] at ready
      | failed stage _ => simp [Life.reads, stage] at ready
      | asked stage _ client unread nothing =>
        have running := runningStage kept (by rw [stage]; exact nofun)
        simp only [Life.raised, Life.drop, stage] at moved
        refine keptResume kept moved stage.symm nofun rfl running id nofun ?_
        obtain ⟨next, effects, step, rfl, -⟩ := resumeMoves moved
        cases step
        exact .failed rfl (by simpa [Resume.taken] using nothing)
      | serving n stage client unread count =>
        have receiving : l.stage = .receiving := readsReceiving ready.1 stage
        have running := runningStage kept (by rw [receiving]; exact nofun)
        simp only [Life.raised, Life.drop, receiving] at moved
        refine keptResume kept moved receiving.symm nofun rfl running id (fun e same => ?_) ?_
        · cases same
          exact .inr rfl
        · obtain ⟨next, effects, step, rfl, -⟩ := resumeMoves moved
          cases step
          refine .serving n nofun (fun _ => ?_) nofun (by simpa [Resume.taken] using count)
          simp only [pruned, client running, wiredPrune]
    · contradiction
  · contradiction

theorem keptOwn {target : Str} {flags : Nat} {payload : Bytes} {fault : Option Str} (kept : Kept say k moments signs l)
    (moved : l.pluginSends x target flags payload fault = some (t, emitted)) :
    Kept say k (moments ++ [.pluginSends target flags payload fault]) (signs ++ emitted) t := by
  unfold Life.pluginSends at moved
  split at moved
  · contradiction
  · cases moved
    have tells := ownTells (l.client.sendRawWithFlags x target flags payload fault).1
    refine ⟨?_, fun e member => ?_, asideOutgoing kept.outgoing tells.written tells.effects, kept.last⟩
    · rw [arrivedAppend, resumesAppend, tells.resumes, List.append_nil]
      exact (List.append_nil (arrivedOf moments)).symm ▸ kept.position
    · rw [resumesAppend, tells.resumes, List.append_nil] at member
      exact kept.lost e member

theorem keptHook {m : Moment} {resume : Resume} (kept : Kept say k moments signs l) (moved : l.resume resume = some (t, emitted))
    (silent : m.data = [])
    (hook : (∃ outcome, resume = .initialised outcome) ∨ (∃ outcome, resume = .handled outcome) ∨ ∃ outcome, resume = .shut outcome) :
    Kept say k (moments ++ [m]) (signs ++ emitted) t := by
  obtain ⟨next, effects, step, rfl, -⟩ := resumeMoves moved
  have inside : l.stage ≠ .registering ∧ ∀ outcome, l.stage ≠ .ended outcome := by
    constructor
    · intro stage
      rw [stage] at step
      rcases hook with ⟨_, rfl⟩ | ⟨_, rfl⟩ | ⟨_, rfl⟩ <;> cases step
    · intro outcome stage
      rw [stage] at step
      cases step
  have running := runningStage kept inside.2
  have untaken : resume.taken = none ∧ (∀ outcome, resume ≠ .sent outcome) ∧ ∀ e, resume ≠ .received (.error e) := by
    rcases hook with ⟨_, rfl⟩ | ⟨_, rfl⟩ | ⟨_, rfl⟩ <;> exact ⟨rfl, nofun, nofun⟩
  refine keptResume kept moved rfl untaken.2.1 silent running id (fun e same => absurd same (untaken.2.2 e)) ?_
  rw [untaken.1, Option.toList_none, List.append_nil]
  cases kept.position with
  | unasked stage _ _ _ _ | asked stage _ _ _ _ => exact absurd stage inside.1
  | failed stage _ => exact absurd stage (inside.2 _)
  | serving n _ client unread count =>
    exact .serving n (stepEmits step).moved client (fun going => unread (goingBefore (stepEmits step) going)) count

theorem keptSends {fault : Option Str}
    (lossless : Lossless x) (kept : Kept say k moments signs l) (moved : l.sends x codec say fault = some (t, emitted)) :
    Kept say k (moments ++ [.sends fault]) (signs ++ emitted) t := by
  unfold Life.sends at moved
  split at moved
  · contradiction
  rename_i envelope pending
  obtain ⟨later, resumed, rfl⟩ := afterMoves moved
  obtain ⟨next, effects, step, rfl, rfl⟩ := resumeMoves resumed
  have inside : l.stage ≠ .registering ∧ ∀ outcome, l.stage ≠ .ended outcome := by
    constructor
    · intro stage
      rw [stage] at step
      cases step
    · intro outcome stage
      rw [stage] at step
      cases step
  have running := runningStage kept inside.2
  have told := resumedTells (l.client.send x codec (lit "kernel") envelope fault).1
    (.sent ((l.client.send x codec (lit "kernel") envelope fault).2.mapError (Life.thrown say))) effects
  have client : l.client = wired secret (some r.pluginId) k.key := by
    cases kept.position with
    | unasked stage _ _ _ _ | asked stage _ _ _ _ => exact absurd stage inside.1
    | failed stage _ => exact absurd stage (inside.2 _)
    | serving n _ client _ _ => exact client running
  refine ⟨?_, fun e member => ?_, sendOutgoing (pending ▸ kept.outgoing) step told ?_, fun returned => ?_⟩
  · rw [arrivedAppend, resumesAppend, told.resumes, takenAppend]
    simp only [Moment.data, Resume.taken, List.append_nil, Option.toList_none]
    cases kept.position with
    | unasked stage _ _ _ _ | asked stage _ _ _ _ => exact absurd stage inside.1
    | failed stage _ => exact absurd stage (inside.2 _)
    | serving n _ client unread count =>
      exact .serving n (stepEmits step).moved client (fun going => unread (goingBefore (stepEmits step) going)) count
  · rw [resumesAppend, told.resumes] at member
    rcases List.mem_append.mp member with before | now
    · exact kept.lost e before
    · cases List.mem_singleton.mp now
  · rw [client]
    rcases wiredSends x codec secret k.key (some r.pluginId) envelope fault with
      ⟨e, unsent, -⟩ | ⟨frame, outcome, sent, packed⟩
    · rw [unsent]
      exact .inl ⟨rfl, _, rfl⟩
    · rw [sent]
      exact .inr ⟨frame, rfl, packedReads lossless packed⟩
  · exact absurd (running.symm.trans returned) nofun

theorem keptAsks {fault : Option Str}
    (lossless : Lossless x) (kept : Kept say k moments signs l) (moved : l.asks x codec say r fault = some (t, emitted)) :
    Kept say k (moments ++ [.asks fault]) (signs ++ emitted) t := by
  unfold Life.asks at moved
  split at moved
  · rename_i fresh
    obtain ⟨stage, first⟩ := fresh
    have running := runningStage kept (by rw [stage]; exact nofun)
    have outgoing := kept.outgoing
    rw [stage, first] at outgoing
    cases kept.position with
    | asked _ second _ _ _ => exact absurd (first.symm.trans second) nofun
    | serving _ later _ _ _ => exact absurd stage later
    | failed ended _ => exact absurd (stage.symm.trans ended) nofun
    | unasked _ _ client unread nothing =>
      have registers : ({ l.client with pluginId := some r.pluginId } : VynkorClient) = wired secret (some r.pluginId) none := by
        rw [client]
        rfl
      obtain ⟨few, requests⟩ := wiredRegisters codec secret r lossless fault
      simp only [registers] at moved
      rcases sent : (wired secret (some r.pluginId) none).sendRegister x codec r fault with ⟨frames, e | _⟩
      · simp only [sent] at moved few requests
        obtain ⟨later, resumed, rfl⟩ := afterMoves moved
        obtain ⟨next, effects, step, rfl, rfl⟩ := resumeMoves resumed
        have told := resumedTells frames (.registered (.error (Life.thrown say e))) effects
        rw [stage] at step
        cases step
        refine ⟨?_, fun e member => ?_, ?_, fun returned => absurd (running.symm.trans returned) nofun⟩
        · rw [arrivedAppend, resumesAppend, told.resumes, takenAppend, nothing]
          exact .failed rfl rfl
        · rw [resumesAppend, told.resumes] at member
          rcases List.mem_append.mp member with before | now
          · exact kept.lost e before
          · cases List.mem_singleton.mp now
        · exact askOutgoing outgoing told.written (by rw [told.effects]; rfl) few requests nofun rfl rfl
      · simp only [sent] at moved few requests
        cases moved
        refine ⟨?_, fun e member => ?_, ?_, fun returned => absurd (running.symm.trans returned) nofun⟩
        · rw [arrivedAppend, resumesAppend, (wroteTells frames).resumes, List.append_nil]
          exact .asked stage rfl rfl (by rw [unread]; exact List.append_nil _) nothing
        · rw [resumesAppend, (wroteTells frames).resumes, List.append_nil] at member
          exact kept.lost e member
        · exact askOutgoing outgoing (wroteTells frames).written (by rw [(wroteTells frames).effects]; rfl) few requests (fun _ => rfl)
            (by rw [stage]; rfl) (unaskedSilent outgoing).2.1
  · contradiction

theorem keptArrives (kept : Kept say k moments signs l) (data : Bytes) :
    Kept say k (moments ++ [.arrives data]) (signs ++ [])
      { l with inbox := { l.inbox with stream := l.inbox.stream ++ data } } := by
  rw [List.append_nil]
  refine ⟨?_, kept.lost, kept.outgoing, kept.last⟩
  rw [arrivedAppend]
  cases kept.position with
  | unasked stage first client unread nothing => exact .unasked stage first client (by rw [unread]; rfl) nothing
  | asked stage second client unread nothing => exact .asked stage second client (by rw [unread]; rfl) nothing
  | serving n stage client unread count =>
    exact .serving n stage client (fun going => by rw [unread going, List.append_assoc]; rfl) count
  | failed stage nothing => exact .failed stage nothing

theorem keptAside {m : Moment} {inbox : Inbox} {finished : Bool} (kept : Kept say k moments signs l) (silent : m.data = [])
    (stream : inbox.stream = l.inbox.stream) (still : l.finished = true → finished = true) :
    Kept say k (moments ++ [m]) (signs ++ []) { l with inbox, finished } := by
  rw [List.append_nil]
  refine ⟨?_, fun e member => ?_, kept.outgoing, kept.last⟩
  · rw [arrivedAppend, silent, List.append_nil]
    cases kept.position with
    | unasked stage first client unread nothing => exact .unasked stage first client (unread.trans stream.symm) nothing
    | asked stage second client unread nothing => exact .asked stage second client (unread.trans stream.symm) nothing
    | serving n stage client unread count =>
      exact .serving n stage client (fun going => by rw [unread going, stream]) count
    | failed stage nothing => exact .failed stage nothing
  · exact lostStays (kept.lost e member) still

theorem keptCloses (kept : Kept say k moments signs l) (moved : l.closes = some (t, emitted)) :
    Kept say k (moments ++ [.closes]) (signs ++ emitted) t := by
  unfold Life.closes at moved
  split at moved
  · rename_i outcome ended
    split at moved
    · contradiction
    · cases moved
      have none : resumesOf [.returned outcome] = [] ∧ effectsOf [.returned outcome] = [] ∧ writtenOf [.returned outcome] = [] :=
        ⟨rfl, rfl, rfl⟩
      refine ⟨?_, fun e member => ?_, ?_, fun _ => ⟨outcome, ended⟩⟩
      · rw [arrivedAppend, resumesAppend, none.1, List.append_nil]
        cases kept.position with
        | unasked stage _ _ _ _ | asked stage _ _ _ _ => exact absurd (stage.symm.trans ended) nofun
        | serving n stage _ _ count =>
          refine .serving n stage nofun (fun going => ?_) count
          rw [show Life.stage _ = .ended outcome from ended] at going
          cases going
        | failed stage nothing => exact .failed stage nothing
      · rw [resumesAppend, none.1, List.append_nil] at member
        exact kept.lost e member
      · exact asideOutgoing kept.outgoing none.2.2 none.2.1
  · contradiction

theorem stepKept {m : Moment}
    (lossless : Lossless x) (kept : Kept say k moments signs l) (ahead : arrivedOf moments <+: k.stream) (aside : LeavesStream l m)
    (moved : l.step x codec say r m = some (t, emitted)) : Kept say k (moments ++ [m]) (signs ++ emitted) t := by
  cases m with
  | arrives data =>
    simp only [Life.step] at moved
    split at moved
    · contradiction
    · cases moved
      exact keptArrives kept data
  | message _ =>
    cases moved
    exact keptAside kept rfl rfl id
  | finishes =>
    simp only [Life.step] at moved
    split at moved
    · cases moved
      exact keptAside kept rfl rfl fun _ => rfl
    · contradiction
  | asks fault => exact keptAsks lossless kept moved
  | turns clock now => exact keptTurns lossless kept ahead moved
  | stalls clock gone => exact keptStalls kept moved
  | sends fault => exact keptSends lossless kept moved
  | pluginSends target flags payload fault => exact keptOwn kept moved
  | hookReads _ | hookCancelled _ _ => exact aside.elim
  | initialised outcome => exact keptHook kept moved rfl (.inl ⟨outcome, rfl⟩)
  | handled outcome => exact keptHook kept moved rfl (.inr (.inl ⟨outcome, rfl⟩))
  | shut outcome => exact keptHook kept moved rfl (.inr (.inr ⟨outcome, rfl⟩))
  | closes => exact keptCloses kept moved

theorem receiveMoves (outcome : Except Thrown Inbound) : ∃ t effects, Stage.receive outcome = some (t, effects) := by
  cases outcome with
  | error e => exact ⟨_, _, rfl⟩
  | ok i =>
    cases kindOf i with
    | ping kind | pluginShutdown kind | event kind =>
      simp only [Stage.receive, kind]
      exact ⟨_, _, rfl⟩
    | other receives _ _ _ _ => exact ⟨_, _, receives⟩

theorem resumesReceiving (stage : l.stage = .receiving) (outcome : Except Thrown Inbound) :
    l.resume (.received outcome) ≠ none := by
  obtain ⟨next, effects, receives⟩ := receiveMoves outcome
  have step : Stage.step .receiving (.received outcome) = some (next, effects) := receives
  simp [Life.resume, stage, step]

theorem waitsInside (lossless : Lossless x) (kept : Kept say k moments signs l)
    (ahead : arrivedOf moments <+: k.stream) (stage : l.stage = .receiving) {clock : Arrival} {now : Nat}
    (stuck : l.turns x codec say r clock now = none) : l.finished = false ∧ Truncated x l.inbox.stream := by
  have running := runningStage kept (by rw [stage]; exact nofun)
  cases kept.position with
  | unasked registering _ _ _ _ | asked registering _ _ _ _ => exact absurd (stage.symm.trans registering) nofun
  | failed ended _ => exact absurd (stage.symm.trans ended) nofun
  | serving n _ client unread count =>
    obtain ⟨future, behind⟩ := unreadAhead ahead (unread (by rw [stage]; rfl))
    have reading : l.reads = true := by simp [Life.reads, stage]
    simp only [Life.turns, reading, if_true, client running] at stuck
    rcases nextReads lossless k.posted behind with waits | ⟨envelope, frame, left, read, -, decoded, -, -⟩
    · obtain ⟨rest, turn⟩ := wiredWaits secret (some r.pluginId) clock l.inbox waits
      simp only [turn] at stuck
      split at stuck
      · simp only [Life.raised, stage] at stuck
        exact absurd stuck (resumesReceiving rfl _)
      · rename_i open_
        exact ⟨by simpa using open_, (asyncIncomplete k.key).mp waits⟩
    · have turn := wiredTurn secret (some r.pluginId) clock l.inbox read (announcedPlain k.key).1
      simp only [turn, Life.got, stage, decoded] at stuck
      exact absurd stuck (resumesReceiving rfl _)

structure Delivers (say : Error → Str) (k : Kernel x codec secret r.pluginId) (moments : List Moment) (signs : List Sign)
    (l : Life) : Prop where
  serves : Runs serve Always .registering (resumesOf signs) (effectsOf signs) l.stage
  taken : ∃ n, takenOf (resumesOf signs) = k.envelopes.take n ∧
    (l.stage = .receiving → arrivedOf moments = k.ackFrame ++ (k.frames.take n).flatten ++ l.inbox.stream)
  waits : l.stage = .receiving → ∀ clock now, l.turns x codec say r clock now = none →
    l.finished = false ∧ Truncated x l.inbox.stream
  lost : ∀ e, .received (.error e) ∈ resumesOf signs → Lost say l e
  among : (writtenOf signs).Sublist (framesOf signs)
  written : ∃ request replies, writtenOf signs = request ++ replies ∧ request.length ≤ 1 ∧
    (∀ frame ∈ request, ∃ envelope, (wired secret (some r.pluginId) none).registerPayload r = .ok envelope ∧
      ReadsAs x codec none envelope frame) ∧
    List.Forall₂ (ReadsAs x codec k.key) ((sentBy (effectsOf signs)).take replies.length) replies ∧
    Progress l.stage l.toSend (sentBy (effectsOf signs)) replies.length
  closing : Closing l signs

theorem keptDelivers (lossless : Lossless x) (kept : Kept say k moments signs l)
    (ahead : arrivedOf moments <+: k.stream)
    (serves : Runs serve Always .registering (resumesOf signs) (effectsOf signs) l.stage) (closing : Closing l signs) :
    Delivers say k moments signs l := by
  refine ⟨serves, ?_, fun stage clock now => waitsInside lossless kept ahead stage, kept.lost, writtenAmong signs, ?_, closing⟩
  · cases kept.position with
    | unasked stage _ _ _ nothing | asked stage _ _ _ nothing =>
      exact ⟨0, nothing, fun receiving => absurd (stage.symm.trans receiving) nofun⟩
    | failed stage nothing => exact ⟨0, nothing, fun receiving => absurd (stage.symm.trans receiving) nofun⟩
    | serving n _ _ unread count => exact ⟨n, count, fun receiving => unread (by rw [receiving]; rfl)⟩
  · obtain ⟨request, replies, written, few, requests, -, reads, progress⟩ := kept.outgoing.split
    exact ⟨request, replies, written, few, requests, reads, progress⟩

theorem startKept : Kept say k [] [] (.start (.connectWithSecret secret)) where
  position := .unasked rfl rfl rfl rfl rfl
  lost := fun _ member => absurd member List.not_mem_nil
  outgoing := ⟨[], [], rfl, Nat.zero_le 1, nofun, fun _ => ⟨rfl, fun _ => rfl⟩, .nil, .clear rfl rfl rfl⟩
  last := nofun

end Run

def sampleAckEnvelope : Envelope := ⟨some (.pluginRegisterAck (sampleAck [7]))⟩

def samplePing : Envelope := ⟨some (.ping 7)⟩

def wireCodec : Codec where
  serialize envelope := if envelope = sampleAckEnvelope then [0] else if envelope = samplePing then [1] else [2]
  parse raw := .ok (if raw = [0] then sampleAckEnvelope else if raw = [1] then samplePing else ⟨none⟩)

def wireKey : Option Bytes := (deriveSessionKey sampleExternals [1] [7] sampleRegistration.pluginId).toOption

def posted (key : Option Bytes) (envelope : Envelope) : Bytes :=
  (packFrame sampleExternals (lit "echo") (wireCodec.serialize envelope) 0 key true).toOption.getD []

def sampleKernel : Kernel sampleExternals wireCodec (some [1]) sampleRegistration.pluginId where
  ack := sampleAck [7]
  key := wireKey
  agreed := by decide +kernel
  ackFrame := posted none sampleAckEnvelope
  answers := ⟨⟨lit "echo", true, by decide +kernel⟩, by decide +kernel⟩
  envelopes := [samplePing, samplePing]
  frames := [posted wireKey samplePing, posted wireKey samplePing]
  posted :=
    have ping : Posted sampleExternals wireCodec wireKey samplePing (posted wireKey samplePing) :=
      ⟨⟨lit "echo", true, by decide +kernel⟩, by decide +kernel⟩
    .cons ping (.cons ping .nil)

def wireMoments : List Moment :=
  [.asks none, .arrives (posted none sampleAckEnvelope), .turns ⟨0, 1⟩ 0, .pluginSends (lit "kernel") 0 (ascii "sub") none,
    .initialised (.ok ()), .arrives ((posted wireKey samplePing).take 10), .arrives ((posted wireKey samplePing).drop 10),
    .turns ⟨2, 3⟩ 5, .sends none, .arrives ((posted wireKey samplePing).take 10), .stalls ⟨4, 5⟩ 1, .shut (.ok ()), .closes]

def wireLife : Option (Life × List Sign) :=
  (runWith sampleExternals wireCodec (fun _ => []) sampleRegistration).run (.start (.connectWithSecret (some [1]))) wireMoments

end Vynkor.Plugin
