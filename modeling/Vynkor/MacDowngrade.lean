import Vynkor.PrecompressedFrames
import Vynkor.ReassemblyInvariant

/-! What a registration decides about the traffic after it. The session key is set
by a side effect that needs a field of the peer's ack; every later send and read
looks at the stored key only. -/
namespace Vynkor
open Octets (Bytes crc32)
open Text Framing Reassembly ExactReader Labelled

/- A frame that announces a tag, which the readers find valid under the key. -/
def Signed (x : Externals) (key raw : Bytes) : Prop :=
  ∃ flags payload, flags &&& flagMacPresent ≠ 0 ∧ Decodes x (some key) raw (flags, payload)

def Verified (x : Externals) (key : Bytes) (f : Frame) (flags : Nat) (payload : Bytes) : Prop :=
  f.flags &&& flagMacPresent ≠ 0 ∧
    f.tag = computeTag x key (headerBytes flags payload.length f.target (crc32 payload)) payload

def Traffic (_ : Session) : Operation → Prop
  | .send .. | .beginFragmented .. | .sendFragment .. | .recvFrame .. | .recvCancelled _ => True
  | .connect | .close | .register .. => False

structure Secured (x : Externals) (codec : Codec) (sessionKey : Option Bytes) (s : Session) (op : Operation) :
    Prop where
  writes : op.Plain → ∀ t reports, s.step x codec op = some (t, reports) → ∀ frame, Writes reports frame →
    ∃ key, sessionKey = some key ∧ Signed x key frame
  reads : ∀ clock inbox, op = .recvFrame clock inbox → ∀ flags payload rest,
    (s.client.prune clock.prunedAt).nextFrame x inbox = (.ok (flags, payload), rest) →
      ∃ key, sessionKey = some key ∧ ∃ f, Session.Holds s.client.transport inbox f ∧ Verified x key f flags payload

def TrafficSecured (x : Externals) (codec : Codec) (c : VynkorClient) : Prop :=
  ∀ (plans : List FragmentPlan) (operations : List Operation) (reports : List Report) (s : Session),
    Runs (Session.machine x codec) Traffic ⟨c, plans, none⟩ operations reports s →
      Runs (Session.machine x codec) (Secured x codec c.sessionKey) ⟨c, plans, none⟩ operations reports s

section Sending
variable {x : Externals} {codec : Codec} {c : VynkorClient} {target : Str} {flags : Nat} {payload : Bytes}
  {fault : Option Str}

theorem sentSigned {key frame : Bytes} (lossless : Lossless x) (keyed : c.sessionKey = some key)
    (plain : flags &&& flagCompressed = 0) (sent : frame ∈ (c.sendRawWithFlags x target flags payload fault).1) :
    Signed x key frame := by
  obtain ⟨compress, packed⟩ := sentPacked sent
  rw [keyed] at packed
  exact ⟨_, payload, Octets.orSet (by decide), keyedDecodes lossless plain packed⟩

theorem connectedSends (connected : c.Connected) (unkeyed : c.sessionKey = none) :
    ∃ frame, frame ∈ (c.sendRawWithFlags x [] 0 [] none).1 := by
  have addressed : targetBytes [] = .ok (List.replicate 32 0) := rfl
  have small : ([] : Bytes).length ≤ maxPayload := by decide
  have flags : 0 < 256 ^ 2 := by decide
  have honest : (none : Option Bytes).isSome = true ∨ 0 &&& flagMacPresent = 0 := .inr rfl
  obtain ⟨whole, packedWhole, -⟩ := packFrameIsFrame (x := x) true small flags addressed honest
  obtain ⟨plain, packedPlain, -⟩ := packFrameIsFrame (x := x) false small flags addressed honest
  unfold VynkorClient.sendRawWithFlags
  unfold VynkorClient.Connected at connected
  cases kind : c.transport with
  | ws =>
    simp only [kind] at connected ⊢
    exact ⟨plain.bytes, by simp [VynkorClient.sendWs, unkeyed, packedPlain, connected]⟩
  | uds =>
    simp only [kind] at connected ⊢
    exact ⟨whole.bytes, by simp [VynkorClient.sendUds, unkeyed, packedWhole, connected]⟩

theorem sendConnected (ok : (c.sendRawWithFlags x target flags payload fault).2 = .ok ()) : c.Connected := by
  unfold VynkorClient.sendRawWithFlags at ok
  unfold VynkorClient.Connected
  cases kind : c.transport with
  | ws =>
    simp only [kind, VynkorClient.sendWs] at ok ⊢
    repeat' split at ok
    all_goals first | contradiction | assumption
  | uds =>
    simp only [kind, VynkorClient.sendUds] at ok ⊢
    repeat' split at ok
    all_goals first | contradiction | assumption

end Sending

section Registering
variable {x : Externals} {codec : Codec} {c after : VynkorClient} {inbox rest : Inbox}

theorem recvFrameKeeps {clocks : List Arrival} {outcome : Except (Halt Error) (Nat × Bytes)}
    (ran : c.recvFrame x clocks inbox = (outcome, after, rest)) :
    after = { c with reassembly := after.reassembly } := by
  induction clocks generalizing c inbox with
  | nil => cases ran; rfl
  | cons clock later ih =>
    simp only [VynkorClient.recvFrame] at ran
    rcases turn : c.recvTurn x clock inbox with ⟨halt | (_ | frame), next, left⟩
    · simp only [turn] at ran; cases ran; exact Session.turnKeeps (Session.turnCases turn)
    · simp only [turn] at ran
      rw [ih ran, Session.turnKeeps (Session.turnCases turn)]
    · simp only [turn] at ran; cases ran; exact Session.turnKeeps (Session.turnCases turn)

/- What a returned ack says of the client: it is connected, and its key is the one
of the ack, or the one it had if the ack has no nonce. -/
structure Registered (x : Externals) (c : VynkorClient) (r : Registration) (ack : PluginRegisterAck)
    (after : VynkorClient) : Prop where
  connected : after.Connected
  secret : after.secret = c.secret
  key : (after.sessionKey = c.sessionKey ∧ (ack.sessionNonce = [] ∨ ∀ secret, c.secret = some secret → secret = [])) ∨
    ∃ key, Session.KeyOf x c r.pluginId ack key ∧ after.sessionKey = some key

theorem handledAck {pluginId : Str} {response : Envelope} {ack : PluginRegisterAck}
    (ran : c.handleRegisterResponse x pluginId response = (.ok ack, after)) :
    response.payload = some (.pluginRegisterAck ack) ∧
      ((ack.sessionNonce = [] ∧ after = c) ∨
        (ack.sessionNonce ≠ [] ∧ c.applySessionNonce x pluginId ack.sessionNonce = .ok after)) := by
  unfold VynkorClient.handleRegisterResponse at ran
  split at ran
  · rename_i given content
    unfold VynkorClient.handleAck at ran
    split at ran
    · rename_i nonce
      split at ran
      · cases ran
      · rename_i keyed applied
        cases ran
        exact ⟨content, .inr ⟨nonce, applied⟩⟩
    · rename_i bare
      cases ran
      exact ⟨content, .inl ⟨not_not.mp bare, rfl⟩⟩
  · cases ran
  · cases ran

theorem handledKey {pluginId : Str} {response : Envelope} {ack : PluginRegisterAck}
    (ran : c.handleRegisterResponse x pluginId response = (.ok ack, after)) :
    after = { c with sessionKey := after.sessionKey } ∧
    ((after.sessionKey = c.sessionKey ∧ (ack.sessionNonce = [] ∨ ∀ secret, c.secret = some secret → secret = [])) ∨
      ∃ key, Session.KeyOf x c pluginId ack key ∧ after.sessionKey = some key) := by
  rcases (handledAck ran).2 with ⟨bare, rfl⟩ | ⟨nonce, applied⟩
  · exact ⟨rfl, .inl ⟨rfl, .inl bare⟩⟩
  · rcases Session.nonceCases applied with ⟨rfl, empty⟩ | ⟨secret, key, held, real, derived, rfl⟩
    · exact ⟨rfl, .inl ⟨rfl, .inr fun secret held => (empty secret held).resolve_right nonce⟩⟩
    · exact ⟨rfl, .inr ⟨key, ⟨nonce, secret, held, real, derived⟩, rfl⟩⟩

theorem registerFullExact {r : Registration} {fault : Option Str} {clocks : List Arrival} {written : List Bytes}
    {ack : PluginRegisterAck}
    (ran : c.registerFull x codec r fault clocks inbox = (written, .ok ack, after, rest)) :
    Registered x c r ack after := by
  unfold VynkorClient.registerFull at ran
  rcases sent : VynkorClient.sendRegister x codec { c with pluginId := some r.pluginId } r fault with
    ⟨out, failure | done⟩
  · simp only [sent] at ran
    cases ran
  have connected : c.Connected := by
    unfold VynkorClient.sendRegister at sent
    split at sent
    · cases sent
    · exact sendConnected (c := { c with pluginId := some r.pluginId }) (congrArg Prod.snd sent)
  rcases read : VynkorClient.recvFrame x { c with pluginId := some r.pluginId } clocks inbox with ⟨got, c₁, left⟩
  have kept := recvFrameKeeps read
  simp only [sent, VynkorClient.recv, read] at ran
  split at ran
  · cases ran
  · rename_i response c₂ inbox₂ received
    have same : c₁ = c₂ := congrArg (fun r => r.2.1) received
    subst same
    rcases handled : c₁.handleRegisterResponse x r.pluginId response with ⟨failure | given, c₂⟩
    · simp only [handled] at ran; cases ran
    · simp only [handled] at ran
      cases ran
      obtain ⟨fields, key⟩ := handledKey handled
      rw [kept] at key
      refine ⟨?_, by rw [fields, kept], ?_⟩
      · rw [fields, kept]; exact connected
      · rcases key with same | ⟨key, derived, same⟩
        · exact .inl same
        · exact .inr ⟨key, ⟨derived.nonce, derived.derived⟩, same⟩

theorem trafficStep {s t : Session} {op : Operation} {emitted : List Report}
    (inv : s.registering = none ∧ s.client.sessionKey = c.sessionKey) (allowed : Traffic s op)
    (move : s.step x codec op = some (t, emitted)) :
    t.registering = none ∧ t.client.sessionKey = c.sessionKey := by
  obtain ⟨idle, key⟩ := inv
  have notRegister (r fault) : op ≠ .register r fault := fun same => by rw [same] at allowed; exact allowed
  refine ⟨Session.stepIdle idle notRegister move, ?_⟩
  have client := Session.stepClient move
  generalize t.client = next at client ⊢
  cases client with
  | connected => exact False.elim allowed
  | kept _ _ same => rw [same]; exact key
  | pruned => exact key
  | turned turn => rw [Session.turnKeeps turn]; exact key
  | keyed waiting _ _ _ => rw [idle] at waiting; contradiction

theorem keyedStep {key : Bytes} {s : Session} (lossless : Lossless x) (keyed : s.client.sessionKey = some key)
    (op : Operation) : Secured x codec (some key) s op where
  writes := by
    intro plain t reports move frame wrote
    obtain ⟨sender, same, target, flags, payload, fault, sent, unset⟩ := Session.stepWrites move wrote
    exact ⟨key, rfl, sentSigned lossless (same.trans keyed) (unset plain) sent⟩
  reads := by
    intro clock inbox _ flags payload rest read
    obtain ⟨f, holds, delivered⟩ := Session.nextFrameReads read
    have kept : (s.client.prune clock.prunedAt).sessionKey = some key := keyed
    rw [kept] at delivered
    obtain ⟨set, -, -, -, tag⟩ := acceptedVerifies delivered
    exact ⟨key, rfl, f, holds, set, tag⟩

theorem keyedSecures {key : Bytes} (lossless : Lossless x) (keyed : c.sessionKey = some key) : TrafficSecured x codec c := by
  intro plans operations reports s run
  rw [keyed]
  refine runsStrengthen (fun _ s => s.registering = none ∧ s.client.sessionKey = c.sessionKey) ⟨rfl, rfl⟩
    (fun _ s op t _ inv meets move => trafficStep inv meets move) ?_ run
  intro _ s op inv _
  exact keyedStep lossless (inv.2.trans keyed) op

theorem unkeyedExposes (connected : c.Connected) (unkeyed : c.sessionKey = none) : ¬ TrafficSecured x codec c := by
  intro secured
  obtain ⟨frame, sent⟩ := connectedSends (x := x) connected unkeyed
  have run : Runs (Session.machine x codec) Traffic ⟨c, [], none⟩ ([] ++ [.send [] 0 [] none]) _ ⟨c, [], none⟩ :=
    .next .idle trivial rfl
  obtain ⟨s, before, first, here⟩ := runsLast [] (secured [] _ _ _ run)
  cases runOfRuns first
  have plain : (Operation.send [] 0 [] none).Plain := Nat.zero_and _
  obtain ⟨key, keyed, -⟩ := here.writes plain _ _ rfl frame
    ⟨.wrote frame, List.mem_append_left _ (List.mem_map.mpr ⟨frame, sent, rfl⟩), rfl⟩
  rw [unkeyed] at keyed
  contradiction

/- After an accepted registration of a client with a secret the traffic is secured, but for
what the caller compressed itself, exactly if the ack carried a nonce, or a key was there
already. -/
theorem macAfterRegistration (x : Externals) (lossless : Lossless x) (codec : Codec) (c : VynkorClient) (r : Registration)
    (fault : Option Str) (clocks : List Arrival) (inbox : Inbox) {secret : Bytes} (held : c.secret = some secret)
    (real : secret ≠ []) {written : List Bytes} {ack : PluginRegisterAck} {after : VynkorClient} {rest : Inbox}
    (returned : c.registerFull x codec r fault clocks inbox = (written, .ok ack, after, rest))
    (_accepted : ack.accepted = true) :
    TrafficSecured x codec after ↔ ack.sessionNonce ≠ [] ∨ c.isSecured = true := by
  have registered := registerFullExact returned
  constructor
  · intro secured
    by_contra neither
    simp only [not_or, not_not, VynkorClient.isSecured, Option.not_isSome_iff_eq_none] at neither
    obtain ⟨bare, unkeyed⟩ := neither
    refine unkeyedExposes registered.connected ?_ secured
    rcases registered.key with ⟨same, -⟩ | ⟨key, derived, -⟩
    · rw [same, unkeyed]
    · exact absurd bare derived.nonce
  · intro either
    rcases registered.key with ⟨same, empty⟩ | ⟨key, derived, same⟩
    · rcases either with nonce | keyed
      · rcases empty with bare | none
        · exact absurd bare nonce
        · exact absurd (none secret held) real
      · obtain ⟨key, had⟩ := Option.isSome_iff_exists.mp keyed
        exact keyedSecures lossless (same.trans had)
    · exact keyedSecures lossless same

end Registering

def sampleSecured : VynkorClient := .connectWithSecret (some [1])

def sampleRegistration : Registration := ⟨lit "echo", lit "1.0.0", none, []⟩

def sampleAck (nonce : Bytes) : PluginRegisterAck := ⟨true, [], nonce⟩

def sampleAckCodec (nonce : Bytes) : Codec := ⟨fun _ => [], fun _ => .ok ⟨some (.pluginRegisterAck (sampleAck nonce))⟩⟩

def sampleReply : Bytes := (packFrame sampleExternals (lit "echo") [0] 0 none true).toOption.getD []

def sampleRegister (nonce : Bytes) :
    List Bytes × Except (Halt Error) PluginRegisterAck × VynkorClient × Inbox :=
  sampleSecured.registerFull sampleExternals (sampleAckCodec nonce) sampleRegistration none [⟨0, 1⟩] ⟨sampleReply, []⟩

theorem sampleRegisterReturns (nonce : Bytes) (short : nonce = [] ∨ nonce = [7]) : sampleRegister nonce =
    ((sampleRegister nonce).1, .ok (sampleAck nonce), (sampleRegister nonce).2.2.1, (sampleRegister nonce).2.2.2) := by
  have answer : (sampleRegister nonce).2.1 = .ok (sampleAck nonce) := by
    rcases short with rfl | rfl <;> decide +kernel
  exact Prod.ext rfl (Prod.ext answer rfl)

theorem macAfterRegistrationSample :
    TrafficSecured sampleExternals (sampleAckCodec [7]) (sampleRegister [7]).2.2.1 :=
  (macAfterRegistration sampleExternals (fun _ _ => rfl) (sampleAckCodec [7]) sampleSecured sampleRegistration none [⟨0, 1⟩]
    ⟨sampleReply, []⟩ rfl (by decide) (sampleRegisterReturns [7] (.inr rfl)) rfl).mpr (.inl (by decide))

/- An ack without a nonce is accepted and leaves the traffic untagged. -/
theorem macSilentlyOff : ¬ ∀ (x : Externals), Lossless x → ∀ (codec : Codec) (c : VynkorClient) (r : Registration)
    (fault : Option Str) (clocks : List Arrival) (inbox : Inbox) (secret : Bytes) (written : List Bytes)
    (ack : PluginRegisterAck) (after : VynkorClient) (rest : Inbox), c.secret = some secret → secret ≠ [] →
      c.registerFull x codec r fault clocks inbox = (written, .ok ack, after, rest) → ack.accepted = true →
        TrafficSecured x codec after := by
  intro claim
  have secured := claim sampleExternals (fun _ _ => rfl) _ _ _ _ _ _ [1] _ _ _ _ rfl (by decide) (sampleRegisterReturns [] (.inl rfl)) rfl
  refine unkeyedExposes (show (sampleRegister []).2.2.1.Connected from ?_) (by decide +kernel) secured
  have uds : (sampleRegister []).2.2.1.transport = .uds := by decide +kernel
  rw [VynkorClient.Connected, uds]
  decide +kernel

end Vynkor
