import Vynkor.MacDowngrade
import Vynkor.PluginServe

/-! `run_with` and `run_ws` of `vynkor/plugin.py` over their client: what the
environment opens, `serve` with the bytes its client reads and writes, what the hooks
do with the client, and the close in the `finally`. -/
namespace Vynkor.Plugin
open Octets (Bytes)
open Text Framing Labelled Reassembly

structure Environ where
  jwtToken : Option Str
  jwtSecret : Option Str
  deviceId : Option Str
  deviceSecret : Option Str
  deriving DecidableEq, Repr

def given : Option Str → Option Str
  | some [] => none
  | value => value

inductive CredentialKind where
  | device | shared | none
  deriving DecidableEq, Repr

structure WsCredentials where
  kind : CredentialKind
  deviceId : Str
  secret : Option Bytes
  deriving DecidableEq, Repr

def heldMaster : Error :=
  .internal (lit "VYN_JWT_SECRET is set alongside VYN_DEVICE_ID/VYN_DEVICE_SECRET — a paired device must not hold the host master secret; unset it")

def resolveWsCredentials (deviceId deviceSecret jwtSecret : Option Str) : Except Error WsCredentials :=
  match given deviceId, given deviceSecret with
  | some device, some secret =>
    if (given jwtSecret).isSome then .error heldMaster
    else (encodeText secret).map fun secret => ⟨.device, device, some secret⟩
  | some _, none => .error (.internal (lit "VYN_DEVICE_ID is set without VYN_DEVICE_SECRET"))
  | none, some _ => .error (.internal (lit "VYN_DEVICE_SECRET is set without VYN_DEVICE_ID"))
  | none, none =>
    match given jwtSecret with
    | some secret => (encodeText secret).map fun secret => ⟨.shared, [], some secret⟩
    | none => .ok ⟨.none, [], none⟩

def Environ.registration (env : Environ) (plugin : Registration) : Registration :=
  { plugin with jwtToken := env.jwtToken.getD [] }

def openUds (env : Environ) : Except Error VynkorClient :=
  match given env.jwtSecret with
  | some secret => (encodeText secret).map fun secret => .connectWithSecret (some secret)
  | none => .ok (.connectWithSecret none)

def openWs (env : Environ) : Except Error VynkorClient := do
  let credentials ← resolveWsCredentials env.deviceId env.deviceSecret env.jwtSecret
  match credentials.kind with
  | .device => return (VynkorClient.connectWs credentials.secret).withDeviceId credentials.deviceId
  | .shared | .none => return .connectWs credentials.secret

/- `asked`: `register_full` has sent its request. `toSend` is what the pending send is to
write, and nothing more comes on a stream that is `finished`. -/
structure Life where
  client : VynkorClient
  stage : Stage
  asked : Bool
  toSend : Option Envelope
  inbox : Inbox
  finished : Bool
  returned : Bool

/- `stalls` is the timeout of a frame of which `gone` bytes were taken. The hooks, and
tasks that they have started, send and read over the client of the loop; a read of theirs
may be cancelled inside a frame. -/
inductive Moment where
  | arrives (data : Bytes)
  | message (m : WsMessage)
  | finishes
  | asks (fault : Option Str)
  | turns (clock : Arrival) (now : Nat)
  | stalls (clock : Arrival) (gone : Nat)
  | sends (fault : Option Str)
  | pluginSends (target : Str) (flags : Nat) (payload : Bytes) (fault : Option Str)
  | hookReads (clock : Arrival)
  | hookCancelled (prunedAt : Time) (gone : Nat)
  | initialised (outcome : Except Thrown Unit)
  | handled (outcome : Hook)
  | shut (outcome : Except Thrown Unit)
  | closes
  deriving DecidableEq

/- `own` is a frame written for the plugin's own code. -/
inductive Sign where
  | wrote (frame : Bytes)
  | own (frame : Bytes)
  | resumed (r : Resume)
  | effect (e : Effect)
  | returned (outcome : Except Thrown Unit)
  deriving DecidableEq, Repr

def Stage.hooked : Stage → Bool
  | .initialising | .initFailed _ | .onEvent _ | .onMessage | .closing _ => true
  | .registering | .receiving | .ponging | .acking _ | .replying | .ended _ => false

namespace Life

def start (c : VynkorClient) : Life := ⟨c, .registering, false, none, ⟨[], []⟩, false, false⟩

def resume (l : Life) (r : Resume) : Option (Life × List Sign) :=
  (l.stage.step r).map fun (stage, effects) =>
    ({ l with stage, toSend := (sentBy effects).head? }, .resumed r :: effects.map .effect)

def reads (l : Life) : Bool :=
  match l.stage with
  | .registering => l.asked
  | .receiving => true
  | _ => false

section Step
variable (x : Externals) (codec : Codec) (say : Error → Str) (r : Registration)

def thrown (e : Error) : Thrown := ⟨e ≠ .cancelled, say e⟩

def after (written : List Bytes) (moved : Option (Life × List Sign)) : Option (Life × List Sign) :=
  moved.map fun (l, signs) => (l, written.map .wrote ++ signs)

def asks (l : Life) (fault : Option Str) : Option (Life × List Sign) :=
  if l.stage = .registering ∧ l.asked = false then
    let c := { l.client with pluginId := some r.pluginId }
    match c.sendRegister x codec r fault with
    | (written, .ok ()) => some ({ l with client := c, asked := true }, written.map .wrote)
    | (written, .error e) => after written ({ l with client := c }.resume (.registered (.error (thrown say e))))
  else none

def raised (l : Life) (e : Error) : Option (Life × List Sign) :=
  match l.stage with
  | .registering => l.resume (.registered (.error (thrown say e)))
  | _ => l.resume (.received (.error (thrown say e)))

def got (l : Life) (flags : Nat) (payload : Bytes) (now : Nat) : Option (Life × List Sign) :=
  match l.stage with
  | .registering =>
    let (outcome, c) := Session.answerRegistration x codec l.client r.pluginId flags payload
    { l with client := c }.resume (.registered (outcome.mapError (thrown say)))
  | _ =>
    match VynkorClient.decodeEnvelope codec flags payload with
    | .error e => l.raised say e
    | .ok envelope => l.resume (.received (.ok ⟨envelope, now⟩))

/- One turn of the `recv_frame` loop. It waits while the frame has not arrived, and a
stream that ends there raises. -/
def turns (l : Life) (clock : Arrival) (now : Nat) : Option (Life × List Sign) :=
  if l.reads then
    match l.client.recvTurn x clock l.inbox with
    | (.error .incomplete, c, _) => if l.finished then { l with client := c }.raised say .incompleteRead else none
    | (.error (.raised e), c, inbox) => { l with client := c, inbox }.raised say e
    | (.ok none, c, inbox) => some ({ l with client := c, inbox }, [])
    | (.ok (some (flags, payload)), c, inbox) => { l with client := c, inbox }.got x codec say r flags payload now
  else none

def drop (l : Life) (gone : Nat) : Life := { l with inbox := { l.inbox with stream := l.inbox.stream.drop gone } }

def stalls (l : Life) (clock : Arrival) (gone : Nat) : Option (Life × List Sign) :=
  if l.reads ∧ l.client.transport = .uds ∧ l.inbox.stream ≠ [] ∧ l.finished = false then
    match l.client.recvTurn x clock l.inbox with
    | (.error .incomplete, c, _) => ({ l with client := c }.drop gone).raised say .frameReadTimeout
    | _ => none
  else none

def hookReads (l : Life) (clock : Arrival) : Option (Life × List Sign) :=
  if l.stage.hooked then
    match l.client.recvTurn x clock l.inbox with
    | (.error .incomplete, c, _) => if l.finished then some ({ l with client := c }, []) else none
    | (_, c, inbox) => some ({ l with client := c, inbox }, [])
  else none

def hookCancelled (l : Life) (prunedAt : Time) (gone : Nat) : Option (Life × List Sign) :=
  if l.stage.hooked then some ({ l with client := l.client.prune prunedAt }.drop gone, []) else none

def pluginSends (l : Life) (target : Str) (flags : Nat) (payload : Bytes) (fault : Option Str) : Option (Life × List Sign) :=
  if l.stage = .registering then none
  else some (l, (l.client.sendRawWithFlags x target flags payload fault).1.map .own)

def sends (l : Life) (fault : Option Str) : Option (Life × List Sign) :=
  match l.toSend with
  | none => none
  | some envelope =>
    let sent := l.client.send x codec (lit "kernel") envelope fault
    after sent.1 (l.resume (.sent (sent.2.mapError (thrown say))))

def closes (l : Life) : Option (Life × List Sign) :=
  match l.stage with
  | .ended outcome =>
    if l.returned then none else some ({ l with client := l.client.close, returned := true }, [.returned outcome])
  | _ => none

def step (l : Life) : Moment → Option (Life × List Sign)
  | .arrives data =>
    if l.finished then none else some ({ l with inbox := { l.inbox with stream := l.inbox.stream ++ data } }, [])
  | .message m => some ({ l with inbox := { l.inbox with messages := l.inbox.messages ++ [m] } }, [])
  | .finishes => if l.client.transport = .uds then some ({ l with finished := true }, []) else none
  | .asks fault => l.asks x codec say r fault
  | .turns clock now => l.turns x codec say r clock now
  | .stalls clock gone => l.stalls x say clock gone
  | .sends fault => l.sends x codec say fault
  | .pluginSends target flags payload fault => l.pluginSends x target flags payload fault
  | .hookReads clock => l.hookReads x clock
  | .hookCancelled prunedAt gone => l.hookCancelled prunedAt gone
  | .initialised outcome => l.resume (.initialised outcome)
  | .handled outcome => l.resume (.handled outcome)
  | .shut outcome => l.resume (.shut outcome)
  | .closes => l.closes

end Step
end Life

def runWith (x : Externals) (codec : Codec) (say : Error → Str) (r : Registration) : Machine Life Moment Sign :=
  ⟨Life.step x codec say r⟩

def Sign.frame : Sign → Option Bytes
  | .wrote frame | .own frame => some frame
  | .resumed _ | .effect _ | .returned _ => none

def Sign.written : Sign → Option Bytes
  | .wrote frame => some frame
  | _ => none

def Sign.resume : Sign → Option Resume
  | .resumed r => some r
  | _ => none

def Sign.emitted : Sign → Option Effect
  | .effect e => some e
  | _ => none

def Sign.outcome : Sign → Option (Except Thrown Unit)
  | .returned outcome => some outcome
  | _ => none

def framesOf (signs : List Sign) : List Bytes := signs.filterMap Sign.frame
def writtenOf (signs : List Sign) : List Bytes := signs.filterMap Sign.written
def resumesOf (signs : List Sign) : List Resume := signs.filterMap Sign.resume
def effectsOf (signs : List Sign) : List Effect := signs.filterMap Sign.emitted
def returnsOf (signs : List Sign) : List (Except Thrown Unit) := signs.filterMap Sign.outcome

theorem framesAppend (signs more : List Sign) : framesOf (signs ++ more) = framesOf signs ++ framesOf more :=
  List.filterMap_append

theorem writtenAppend (signs more : List Sign) : writtenOf (signs ++ more) = writtenOf signs ++ writtenOf more :=
  List.filterMap_append

theorem resumesAppend (signs more : List Sign) : resumesOf (signs ++ more) = resumesOf signs ++ resumesOf more :=
  List.filterMap_append

theorem effectsAppend (signs more : List Sign) : effectsOf (signs ++ more) = effectsOf signs ++ effectsOf more :=
  List.filterMap_append

theorem returnsAppend (signs more : List Sign) : returnsOf (signs ++ more) = returnsOf signs ++ returnsOf more :=
  List.filterMap_append

structure Tells (frames written : List Bytes) (resumes : List Resume) (effects : List Effect) (signs : List Sign) : Prop where
  frames : framesOf signs = frames
  written : writtenOf signs = written
  resumes : resumesOf signs = resumes
  effects : effectsOf signs = effects
  returns : returnsOf signs = []

theorem Tells.more {frames written frames' written' : List Bytes} {resumes resumes' : List Resume} {effects effects' : List Effect}
    {signs later : List Sign} (first : Tells frames written resumes effects signs)
    (second : Tells frames' written' resumes' effects' later) :
    Tells (frames ++ frames') (written ++ written') (resumes ++ resumes') (effects ++ effects') (signs ++ later) where
  frames := by rw [framesAppend, first.frames, second.frames]
  written := by rw [writtenAppend, first.written, second.written]
  resumes := by rw [resumesAppend, first.resumes, second.resumes]
  effects := by rw [effectsAppend, first.effects, second.effects]
  returns := by rw [returnsAppend, first.returns, second.returns, List.append_nil]

theorem wroteTells (frames : List Bytes) : Tells frames frames [] [] (frames.map .wrote) := by
  induction frames with
  | nil => exact ⟨rfl, rfl, rfl, rfl, rfl⟩
  | cons frame rest ih =>
    exact ⟨congrArg (frame :: ·) ih.frames, congrArg (frame :: ·) ih.written, ih.resumes, ih.effects, ih.returns⟩

theorem ownTells (frames : List Bytes) : Tells frames [] [] [] (frames.map .own) := by
  induction frames with
  | nil => exact ⟨rfl, rfl, rfl, rfl, rfl⟩
  | cons frame rest ih => exact ⟨congrArg (frame :: ·) ih.frames, ih.written, ih.resumes, ih.effects, ih.returns⟩

theorem effectTells (effects : List Effect) : Tells [] [] [] effects (effects.map .effect) := by
  induction effects with
  | nil => exact ⟨rfl, rfl, rfl, rfl, rfl⟩
  | cons e rest ih => exact ⟨ih.frames, ih.written, ih.resumes, congrArg (e :: ·) ih.effects, ih.returns⟩

theorem writtenAmong (signs : List Sign) : (writtenOf signs).Sublist (framesOf signs) := by
  induction signs with
  | nil => exact .slnil
  | cons sign rest ih =>
    cases sign with
    | wrote frame => exact .cons_cons frame ih
    | own frame => exact .cons frame ih
    | resumed _ | effect _ | returned _ => exact ih

theorem resumedTells (frames : List Bytes) (resume : Resume) (effects : List Effect) :
    Tells frames frames [resume] effects (frames.map .wrote ++ .resumed resume :: effects.map .effect) := by
  have later := effectTells effects
  have goes : Tells [] [] [resume] effects (.resumed resume :: effects.map .effect) :=
    ⟨later.frames, later.written, congrArg (resume :: ·) later.resumes, later.effects, later.returns⟩
  have whole := (wroteTells frames).more goes
  rwa [List.append_nil, List.nil_append, List.nil_append] at whole

theorem headSends {effects : List Effect} {e : Envelope} (first : (sentBy effects).head? = some e) : .sends e ∈ effects := by
  obtain ⟨effect, member, sends⟩ := List.mem_filterMap.mp (List.mem_of_mem_head? first)
  cases effect with
  | sends other =>
    cases sends
    exact member
  | onInit | onEvent _ | onMessage _ | onShutdown | ended _ => cases sends

section Steps
variable {x : Externals} {codec : Codec} {say : Error → Str} {r : Registration} {l t : Life} {m : Moment} {signs : List Sign}

theorem resumeMoves {resume : Resume} (moved : l.resume resume = some (t, signs)) :
    ∃ stage effects, l.stage.step resume = some (stage, effects) ∧
      t = { l with stage, toSend := (sentBy effects).head? } ∧ signs = .resumed resume :: effects.map .effect := by
  unfold Life.resume at moved
  obtain ⟨⟨stage, effects⟩, step, same⟩ := Option.map_eq_some_iff.mp moved
  cases same
  exact ⟨stage, effects, step, rfl, rfl⟩

theorem afterMoves {written : List Bytes} {moved : Option (Life × List Sign)} (ran : Life.after written moved = some (t, signs)) :
    ∃ later, moved = some (t, later) ∧ signs = written.map .wrote ++ later := by
  unfold Life.after at ran
  obtain ⟨⟨l, later⟩, rfl, same⟩ := Option.map_eq_some_iff.mp ran
  cases same
  exact ⟨later, rfl, rfl⟩

theorem raisedMoves {e : Error} (moved : l.raised say e = some (t, signs)) :
    ∃ resume, l.resume resume = some (t, signs) := by
  unfold Life.raised at moved
  split at moved <;> exact ⟨_, moved⟩

inductive ClientMoves (x : Externals) (codec : Codec) (r : Registration) (l : Life) : VynkorClient → List Bytes → Prop where
  | kept : ClientMoves x codec r l l.client []
  | asked (fault : Option Str) : ClientMoves x codec r l { l.client with pluginId := some r.pluginId }
      (VynkorClient.sendRegister x codec { l.client with pluginId := some r.pluginId } r fault).1
  | turned {clock outcome after} (turn : Session.Turns x l.client clock l.inbox outcome after) :
      ClientMoves x codec r l after []
  | pruned (now : Time) : ClientMoves x codec r l (l.client.prune now) []
  | keyed {clock outcome after ack key} (turn : Session.Turns x l.client clock l.inbox outcome after)
      (derived : Session.KeyOf x after r.pluginId ack key) : ClientMoves x codec r l { after with sessionKey := some key } []
  | sent {envelope} (fault : Option Str) (pending : l.toSend = some envelope) :
      ClientMoves x codec r l l.client (l.client.send x codec (lit "kernel") envelope fault).1

/- The run waits on, `serve` goes on from its await, the plugin's own code sends, or all
is over and the client is closed. -/
inductive Shape (x : Externals) (codec : Codec) (r : Registration) (l t : Life) (m : Moment) : List Sign → Prop where
  | stays {frames} (client : ClientMoves x codec r l t.client frames)
      (same : t.stage = l.stage ∧ t.toSend = l.toSend ∧ t.returned = l.returned) : Shape x codec r l t m (frames.map .wrote)
  | resumes {base : Life} {resume frames later} (moved : base.resume resume = some (t, later))
      (client : ClientMoves x codec r l base.client frames) (same : base.stage = l.stage ∧ base.returned = l.returned) :
      Shape x codec r l t m (frames.map .wrote ++ later)
  | owns {target flags payload fault} (label : m = .pluginSends target flags payload fault) (after : t = l) :
      Shape x codec r l t m ((l.client.sendRawWithFlags x target flags payload fault).1.map .own)
  | closes {outcome} (ended : l.stage = .ended outcome) (fresh : l.returned = false)
      (after : t = { l with client := l.client.close, returned := true }) : Shape x codec r l t m [.returned outcome]

theorem stillShape (client : ClientMoves x codec r l t.client [])
    (same : t.stage = l.stage ∧ t.toSend = l.toSend ∧ t.returned = l.returned) : Shape x codec r l t m [] :=
  .stays client same

theorem quietShape {base : Life} {resume : Resume} (moved : base.resume resume = some (t, signs))
    (client : ClientMoves x codec r l base.client []) (same : base.stage = l.stage ∧ base.returned = l.returned) :
    Shape x codec r l t m signs := .resumes moved client same

theorem gotMoves {flags : Nat} {payload : Bytes} {now : Nat} (moved : l.got x codec say r flags payload now = some (t, signs)) :
    ∃ c resume, Life.resume { l with client := c } resume = some (t, signs) ∧
      (c = l.client ∨ ∃ ack key, Session.KeyOf x l.client r.pluginId ack key ∧ c = { l.client with sessionKey := some key }) := by
  unfold Life.got at moved
  split at moved
  · rcases answered : Session.answerRegistration x codec l.client r.pluginId flags payload with ⟨outcome, c⟩
    simp only [answered] at moved
    refine ⟨c, _, moved, ?_⟩
    rcases Session.answerCases answered with rfl | ⟨ack, key, -, derived, -, rfl⟩
    · exact .inl rfl
    · exact .inr ⟨ack, key, derived, rfl⟩
  · split at moved
    · obtain ⟨resume, moved⟩ := raisedMoves moved
      exact ⟨l.client, resume, moved, .inl rfl⟩
    · exact ⟨l.client, _, moved, .inl rfl⟩

theorem turnsShape {clock : Arrival} {now : Nat} (moved : l.turns x codec say r clock now = some (t, signs)) :
    Shape x codec r l t m signs := by
  unfold Life.turns at moved
  split at moved
  · rcases ran : l.client.recvTurn x clock l.inbox with ⟨(e | _) | (_ | ⟨flags, payload⟩), c, inbox⟩
    · simp only [ran] at moved
      obtain ⟨resume, moved⟩ := raisedMoves moved
      exact quietShape moved (.turned (Session.turnCases ran)) ⟨rfl, rfl⟩
    · simp only [ran] at moved
      split at moved
      · obtain ⟨resume, moved⟩ := raisedMoves moved
        exact quietShape moved (.turned (Session.turnCases ran)) ⟨rfl, rfl⟩
      · contradiction
    · simp only [ran] at moved
      cases moved
      exact stillShape (.turned (Session.turnCases ran)) ⟨rfl, rfl, rfl⟩
    · simp only [ran] at moved
      obtain ⟨_, resume, moved, rfl | ⟨ack, key, derived, rfl⟩⟩ := gotMoves moved
      · exact quietShape moved (.turned (Session.turnCases ran)) ⟨rfl, rfl⟩
      · exact quietShape moved (.keyed (Session.turnCases ran) derived) ⟨rfl, rfl⟩
  · contradiction

theorem stallsShape {clock : Arrival} {gone : Nat} (moved : l.stalls x say clock gone = some (t, signs)) :
    Shape x codec r l t m signs := by
  unfold Life.stalls at moved
  split at moved
  · split at moved
    · rename_i c _ ran
      obtain ⟨resume, moved⟩ := raisedMoves moved
      exact quietShape moved (.turned (Session.turnCases ran)) ⟨rfl, rfl⟩
    · contradiction
  · contradiction

theorem hookReadsShape {clock : Arrival} (moved : l.hookReads x clock = some (t, signs)) : Shape x codec r l t m signs := by
  unfold Life.hookReads at moved
  split at moved
  · split at moved
    · rename_i c _ ran
      split at moved
      · cases moved
        exact stillShape (.turned (Session.turnCases ran)) ⟨rfl, rfl, rfl⟩
      · contradiction
    · rename_i c inbox _ ran
      cases moved
      exact stillShape (.turned (Session.turnCases ran)) ⟨rfl, rfl, rfl⟩
  · contradiction

theorem asksShape {fault : Option Str} (moved : l.asks x codec say r fault = some (t, signs)) : Shape x codec r l t m signs := by
  have written : ClientMoves x codec r l { l.client with pluginId := some r.pluginId }
      (VynkorClient.sendRegister x codec { l.client with pluginId := some r.pluginId } r fault).1 := .asked fault
  unfold Life.asks at moved
  split at moved
  · rcases sent : VynkorClient.sendRegister x codec { l.client with pluginId := some r.pluginId } r fault with
      ⟨frames, e | _⟩
    · simp only [sent] at moved written
      obtain ⟨later, resumed, rfl⟩ := afterMoves moved
      exact .resumes resumed written ⟨rfl, rfl⟩
    · simp only [sent] at moved written
      cases moved
      exact .stays written ⟨rfl, rfl, rfl⟩
  · contradiction

theorem stepShape (moved : l.step x codec say r m = some (t, signs)) : Shape x codec r l t m signs := by
  cases m with
  | arrives data =>
    simp only [Life.step] at moved
    split at moved
    · contradiction
    · cases moved
      exact stillShape .kept ⟨rfl, rfl, rfl⟩
  | message _ =>
    cases moved
    exact stillShape .kept ⟨rfl, rfl, rfl⟩
  | finishes =>
    simp only [Life.step] at moved
    split at moved
    · cases moved
      exact stillShape .kept ⟨rfl, rfl, rfl⟩
    · contradiction
  | asks fault => exact asksShape moved
  | turns clock now => exact turnsShape moved
  | stalls clock gone => exact stallsShape moved
  | hookReads clock => exact hookReadsShape moved
  | hookCancelled prunedAt gone =>
    simp only [Life.step, Life.hookCancelled] at moved
    split at moved
    · cases moved
      exact stillShape (.pruned prunedAt) ⟨rfl, rfl, rfl⟩
    · contradiction
  | pluginSends target flags payload fault =>
    simp only [Life.step, Life.pluginSends] at moved
    split at moved
    · contradiction
    · cases moved
      exact .owns rfl rfl
  | sends fault =>
    simp only [Life.step, Life.sends] at moved
    split at moved
    · contradiction
    · rename_i envelope pending
      obtain ⟨later, resumed, rfl⟩ := afterMoves moved
      exact .resumes resumed (.sent fault pending) ⟨rfl, rfl⟩
  | initialised _ | handled _ | shut _ => exact quietShape moved .kept ⟨rfl, rfl⟩
  | closes =>
    simp only [Life.step, Life.closes] at moved
    split at moved
    · split at moved
      · contradiction
      · rename_i outcome ended fresh
        cases moved
        exact .closes ended (by simpa using fresh) rfl
    · contradiction

end Steps

inductive Opens (env : Environ) : VynkorClient → Prop where
  | device {id secret raw} (hasId : given env.deviceId = some id) (hasSecret : given env.deviceSecret = some secret)
      (noMaster : given env.jwtSecret = none) (encoded : encodeText secret = .ok raw) :
      Opens env ((VynkorClient.connectWs (some raw)).withDeviceId id)
  | shared {secret raw} (noId : given env.deviceId = none) (noSecret : given env.deviceSecret = none)
      (master : given env.jwtSecret = some secret) (encoded : encodeText secret = .ok raw) :
      Opens env (.connectWs (some raw))
  | unsecured (noId : given env.deviceId = none) (noSecret : given env.deviceSecret = none)
      (noMaster : given env.jwtSecret = none) : Opens env (.connectWs none)

inductive OpensUds (env : Environ) : VynkorClient → Prop where
  | secured {secret raw} (master : given env.jwtSecret = some secret) (encoded : encodeText secret = .ok raw) :
      OpensUds env (.connectWithSecret (some raw))
  | unsecured (noMaster : given env.jwtSecret = none) : OpensUds env (.connectWithSecret none)

theorem opensUdsExact {env : Environ} {c : VynkorClient} : openUds env = .ok c ↔ OpensUds env c := by
  constructor
  · intro opened
    unfold openUds at opened
    cases master : given env.jwtSecret with
    | none =>
      simp only [master] at opened
      cases opened
      exact .unsecured master
    | some secret =>
      cases encoded : encodeText secret with
      | error e => simp [master, encoded, Except.map] at opened
      | ok raw =>
        simp only [master, encoded, Except.map] at opened
        cases opened
        exact .secured master encoded
  · intro opens
    unfold openUds
    cases opens with
    | secured master encoded => simp [master, encoded, Except.map]
    | unsecured noMaster => simp [noMaster]

theorem opensExact {env : Environ} {c : VynkorClient} : openWs env = .ok c ↔ Opens env c := by
  constructor
  · intro opened
    unfold openWs resolveWsCredentials at opened
    cases hasId : given env.deviceId with
    | some id =>
      cases hasSecret : given env.deviceSecret with
      | none => simp [hasId, hasSecret, bind, Except.bind] at opened
      | some secret =>
        cases master : given env.jwtSecret with
        | some _ => simp [hasId, hasSecret, master, bind, Except.bind] at opened
        | none =>
          cases encoded : encodeText secret with
          | error e => simp [hasId, hasSecret, master, encoded, Except.map, bind, Except.bind] at opened
          | ok raw =>
            simp only [hasId, hasSecret, master, encoded, Except.map, bind, Except.bind, pure, Except.pure,
              Option.isSome_none, Bool.false_eq_true, if_false] at opened
            cases opened
            exact .device hasId hasSecret master encoded
    | none =>
      cases hasSecret : given env.deviceSecret with
      | some _ => simp [hasId, hasSecret, bind, Except.bind] at opened
      | none =>
        cases master : given env.jwtSecret with
        | none =>
          simp only [hasId, hasSecret, master, bind, Except.bind, pure, Except.pure] at opened
          cases opened
          exact .unsecured hasId hasSecret master
        | some secret =>
          cases encoded : encodeText secret with
          | error e => simp [hasId, hasSecret, master, encoded, Except.map, bind, Except.bind] at opened
          | ok raw =>
            simp only [hasId, hasSecret, master, encoded, Except.map, bind, Except.bind, pure, Except.pure] at opened
            cases opened
            exact .shared hasId hasSecret master encoded
  · intro opens
    unfold openWs resolveWsCredentials
    cases opens with
    | device hasId hasSecret noMaster encoded =>
      simp [hasId, hasSecret, noMaster, encoded, Except.map, bind, Except.bind, pure, Except.pure]
    | shared noId noSecret master encoded =>
      simp [noId, noSecret, master, encoded, Except.map, bind, Except.bind, pure, Except.pure]
    | unsecured noId noSecret noMaster => simp [noId, noSecret, noMaster, bind, Except.bind, pure, Except.pure]

def Keyed (x : Externals) (c : VynkorClient) (pluginId : Str) (key : Option Bytes) : Prop :=
  key = none ∨ ∃ secret nonce k, c.secret = some secret ∧ nonce ≠ [] ∧
    deriveSessionKey x secret nonce pluginId = .ok k ∧ key = some k

section Credentials
variable {x : Externals} {codec : Codec} {say : Error → Str} {r : Registration} {c : VynkorClient}

def Carrying (x : Externals) (codec : Codec) (c : VynkorClient) (r : Registration) (envelope : Envelope) (frame : Bytes) :
    Prop :=
  ∃ key compress, Keyed x c r.pluginId key ∧ packFrame x (lit "kernel") (codec.serialize envelope) 0 key compress = .ok frame

/- The registration, what `serve` sends, or what the plugin's own code has the client send,
each with no tag or with one under the secret of the environment. -/
inductive Sent (x : Externals) (codec : Codec) (c : VynkorClient) (r : Registration) (moments : List Moment)
    (effects : List Effect) (frame : Bytes) : Prop where
  | registration {envelope} (made : c.registerPayload r = .ok envelope) (carries : Carrying x codec c r envelope frame)
  | served {envelope} (sent : .sends envelope ∈ effects) (carries : Carrying x codec c r envelope frame)
  | own {target flags payload fault key compress} (told : .pluginSends target flags payload fault ∈ moments)
      (keyed : Keyed x c r.pluginId key) (packed : packFrame x target payload flags key compress = .ok frame)

theorem sentMore {moments later : List Moment} {effects more : List Effect} {frame : Bytes} (sent : Sent x codec c r moments effects frame) :
    Sent x codec c r (moments ++ later) (effects ++ more) frame := by
  cases sent with
  | registration made carries => exact .registration made carries
  | served sent carries => exact .served (List.mem_append_left _ sent) carries
  | own told keyed packed => exact .own (List.mem_append_left _ told) keyed packed

structure Holds (x : Externals) (codec : Codec) (c : VynkorClient) (r : Registration) (moments : List Moment) (signs : List Sign)
    (l : Life) : Prop where
  secret : l.client.secret = c.secret
  deviceId : l.client.deviceId = c.deviceId
  key : Keyed x c r.pluginId l.client.sessionKey
  pending : ∀ e, l.toSend = some e → .sends e ∈ effectsOf signs
  written : ∀ frame ∈ framesOf signs, Sent x codec c r moments (effectsOf signs) frame

theorem movedKeeps {l : Life} {after : VynkorClient} {frames : List Bytes} {moments : List Moment} {effects : List Effect}
    (moves : ClientMoves x codec r l after frames) (secret : l.client.secret = c.secret) (deviceId : l.client.deviceId = c.deviceId)
    (key : Keyed x c r.pluginId l.client.sessionKey) (pending : ∀ e, l.toSend = some e → .sends e ∈ effects) :
    after.secret = c.secret ∧ after.deviceId = c.deviceId ∧ Keyed x c r.pluginId after.sessionKey ∧
      ∀ frame ∈ frames, Sent x codec c r moments effects frame := by
  have none : ∀ frame ∈ ([] : List Bytes), Sent x codec c r moments effects frame := by simp
  cases moves with
  | kept | pruned _ => exact ⟨secret, deviceId, key, none⟩
  | asked fault =>
    refine ⟨secret, deviceId, key, fun frame member => ?_⟩
    have payload : VynkorClient.registerPayload { l.client with pluginId := some r.pluginId } r = c.registerPayload r := by
      simp only [VynkorClient.registerPayload, deviceId]
    unfold VynkorClient.sendRegister at member
    rw [payload] at member
    cases made : c.registerPayload r with
    | error e => simp [made] at member
    | ok envelope =>
      simp only [made] at member
      obtain ⟨compress, packed⟩ := sentPacked member
      exact .registration made ⟨_, compress, key, packed⟩
  | turned turn =>
    rw [Session.turnKeeps turn]
    exact ⟨secret, deviceId, key, none⟩
  | @keyed clock outcome after ack k turn derived =>
    obtain ⟨full, own, held, -, made⟩ := derived
    rw [Session.turnKeeps turn] at held ⊢
    exact ⟨secret, deviceId, .inr ⟨own, _, k, secret ▸ held, full, made, rfl⟩, none⟩
  | sent fault due =>
    refine ⟨secret, deviceId, key, fun frame member => ?_⟩
    obtain ⟨compress, packed⟩ := sentPacked member
    exact .served (pending _ due) ⟨_, compress, key, packed⟩

theorem stepHolds {moments : List Moment} {signs emitted : List Sign} {l t : Life} {m : Moment}
    (holds : Holds x codec c r moments signs l) (moved : l.step x codec say r m = some (t, emitted)) :
    Holds x codec c r (moments ++ [m]) (signs ++ emitted) t := by
  have frames {later : List Sign} {fresh : List Bytes} (tells : framesOf later = fresh)
      (wrote : ∀ frame ∈ fresh, Sent x codec c r (moments ++ [m]) (effectsOf (signs ++ later)) frame) :
      ∀ frame ∈ framesOf (signs ++ later), Sent x codec c r (moments ++ [m]) (effectsOf (signs ++ later)) frame := by
    intro frame member
    rw [framesAppend, tells] at member
    rcases List.mem_append.mp member with before | now
    · rw [effectsAppend]
      exact sentMore (holds.written frame before)
    · exact wrote frame now
  have due (later : List Sign) (e : Envelope) (next : l.toSend = some e) : .sends e ∈ effectsOf (signs ++ later) := by
    rw [effectsAppend]
    exact List.mem_append_left _ (holds.pending e next)
  cases stepShape moved with
  | @stays fresh client same =>
    obtain ⟨secret, deviceId, key, wrote⟩ := movedKeeps client holds.secret holds.deviceId holds.key (due (fresh.map .wrote))
    exact ⟨secret, deviceId, key, fun e next => due _ e (same.2.1 ▸ next), frames (wroteTells fresh).frames wrote⟩
  | @resumes base resume fresh later resumed client same =>
    obtain ⟨stage, effects, -, rfl, rfl⟩ := resumeMoves resumed
    have tells := resumedTells fresh resume effects
    obtain ⟨secret, deviceId, key, wrote⟩ := movedKeeps client holds.secret holds.deviceId holds.key
      (due (fresh.map .wrote ++ .resumed resume :: effects.map .effect))
    refine ⟨secret, deviceId, key, fun e next => ?_, frames tells.frames wrote⟩
    rw [effectsAppend, tells.effects]
    exact List.mem_append_right _ (headSends next)
  | @owns target flags payload fault label after =>
    subst after
    refine ⟨holds.secret, holds.deviceId, holds.key, due _, frames (ownTells _).frames fun frame member => ?_⟩
    obtain ⟨compress, packed⟩ := sentPacked member
    exact .own (List.mem_append_right _ (by rw [label]; exact List.mem_singleton.mpr rfl)) holds.key packed
  | @closes outcome ended fresh after =>
    subst after
    have kept := closeKeeps l.client
    have nothing : framesOf [.returned outcome] = [] := rfl
    exact ⟨by rw [kept]; exact holds.secret, by rw [kept]; exact holds.deviceId, by rw [kept]; exact holds.key, due _,
      frames nothing fun _ member => absurd member List.not_mem_nil⟩

/- `run_ws` and `run_with` open a client just where the environment is consistent, with
the one secret that it names for them, and whatever such a run writes is its
registration, with the token and the device id if there is one, what `serve` sends, or
what the plugin's own code has the client send, tagged by nothing or under that secret. -/
theorem credentialsKept (x : Externals) (codec : Codec) (say : Error → Str) (plugin : Registration) (env : Environ)
    (c : VynkorClient) :
    (openWs env = .ok c ↔ Opens env c) ∧ (openUds env = .ok c ↔ OpensUds env c) ∧
      (Opens env c ∨ OpensUds env c → ∀ {moments signs l},
        Runs (runWith x codec say (env.registration plugin)) Always (.start c) moments signs l →
          ∀ frame ∈ framesOf signs, Sent x codec c (env.registration plugin) moments (effectsOf signs) frame) := by
  refine ⟨opensExact, opensUdsExact, fun opens moments signs l run => ?_⟩
  have unkeyed : c.sessionKey = none := by
    rcases opens with ws | uds
    · cases ws <;> rfl
    · cases uds <;> rfl
  have first : Holds x codec c (env.registration plugin) [] [] (.start c) := ⟨rfl, rfl, .inl unkeyed, nofun, nofun⟩
  exact (runsTrace (fun moments signs l => Holds x codec c (env.registration plugin) moments signs l) first
    (fun _ _ _ _ _ _ holds _ moved => stepHolds holds moved) run).written

end Credentials

def sampleEnviron : Environ := ⟨some (lit "t"), none, some (lit "phone"), some (lit "s")⟩

def sampleDevice : VynkorClient := (VynkorClient.connectWs (some (ascii "s"))).withDeviceId (lit "phone")

def sampleSessionKey : Option Bytes := (deriveSessionKey sampleExternals (ascii "s") [7] (lit "echo")).toOption

def sampleAsked : Bytes := (packFrame sampleExternals (lit "echo") [0] 0 sampleSessionKey false).toOption.getD []

def sampleMoments : List Moment :=
  [.asks none, .message (.binary sampleReply), .turns ⟨0, 1⟩ 0, .pluginSends (lit "kernel") 0 (ascii "sub") none,
    .message (.binary sampleAsked), .hookReads ⟨1, 2⟩, .initialised (.ok ()), .message (.binary sampleAsked), .turns ⟨2, 3⟩ 0,
    .handled (.ok (some ⟨none⟩)), .sends none]

def samplePresented : Registration := sampleEnviron.registration sampleRegistration

def sampleLife : Option (Life × List Sign) :=
  (runWith sampleExternals (sampleAckCodec [7]) (fun _ => []) samplePresented).run (.start sampleDevice) sampleMoments

theorem credentialsKeptSample :
    openWs sampleEnviron = .ok sampleDevice ∧ (sampleLife.map fun ran => (framesOf ran.2).length) = some 3 ∧
      ∀ ran ∈ sampleLife, ∀ frame ∈ framesOf ran.2,
        Sent sampleExternals (sampleAckCodec [7]) sampleDevice samplePresented sampleMoments (effectsOf ran.2) frame := by
  have opens : Opens sampleEnviron sampleDevice :=
    .device (by decide) (by decide) (by decide) (by decide +kernel : encodeText (lit "s") = .ok (ascii "s"))
  obtain ⟨opened, -, kept⟩ := credentialsKept sampleExternals (sampleAckCodec [7]) (fun _ => []) sampleRegistration
    sampleEnviron sampleDevice
  exact ⟨opened.mpr opens, by decide +kernel, fun ran member => kept (.inl opens) (runsOfRun member)⟩

end Vynkor.Plugin
