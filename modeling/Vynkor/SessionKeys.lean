import Vynkor.FrameAuthenticity
import Vynkor.MacDowngrade

/-! Session keys: what the HKDF of `vynkor/framing.py` computes, and that a frame of one
session is refused in every other. HMAC is a parameter; all that is used of it is that
calls which were made do not collide. -/
namespace Vynkor.SessionKeys
open Octets (Bytes crc32)
open Text Framing ExactReader Labelled

section Expand
variable (x : Externals) (prk info : Bytes)

def block : Nat → Bytes
  | 0 => []
  | n + 1 => x.hmacSha256 prk (block n ++ info ++ [UInt8.ofNat (n + 1)])

def blocks : Nat → Bytes
  | 0 => []
  | n + 1 => blocks n ++ block x prk info (n + 1)

theorem blocksLength (n : Nat) : (blocks x prk info n).length = 32 * n := by
  induction n with
  | zero => rfl
  | succ n ih =>
    have size : (block x prk info (n + 1)).length = 32 := x.digestLength _ _
    rw [blocks, List.length_append, ih, size]
    omega

theorem blocksPrefix {m n : Nat} (below : m ≤ n) : blocks x prk info m <+: blocks x prk info n := by
  induction below with
  | refl => exact List.prefix_refl _
  | step _ ih => exact ih.trans (List.prefix_append _ _)

theorem blocksTake {length m n : Nat} (below : m ≤ n) (enough : length ≤ 32 * m) :
    (blocks x prk info n).take length = (blocks x prk info m).take length := by
  obtain ⟨rest, whole⟩ := blocksPrefix x prk info below
  rw [← whole, List.take_append_of_le_length (by rwa [blocksLength])]

def counterError : Error := .valueError (lit "bytes must be in range(0, 256)")

def expanded (length : Nat) : Except Error Bytes :=
  if length ≤ 255 * 32 then .ok ((blocks x prk info 255).take length) else .error counterError

theorem expandFrom (length : Nat) {legal n : Nat} (count : n + legal = 255) :
    hkdfExpandLoop x prk info length legal (block x prk info n) (blocks x prk info n) = expanded x prk info length := by
  induction legal generalizing n with
  | zero =>
    obtain rfl : n = 255 := count
    rw [hkdfExpandLoop, expanded, blocksLength]
    split_ifs <;> first | rfl | omega
  | succ legal ih =>
    rw [hkdfExpandLoop, blocksLength]
    by_cases more : 32 * n < length
    · have counter : 255 - legal = n + 1 := by omega
      have ahead : n + 1 + legal = 255 := by omega
      rw [if_pos more, counter]
      exact ih ahead
    · have inside : n ≤ 255 := by omega
      have short : length ≤ 255 * 32 := by omega
      rw [if_neg more, expanded, if_pos short, blocksTake x prk info inside (Nat.le_of_not_lt more)]

/- For every length, the loop is RFC 5869 up to its limit of 255 blocks and raises beyond it. -/
theorem expandBlocks (length : Nat) : hkdfExpand x prk info length = expanded x prk info length :=
  expandFrom x prk info length (n := 0) rfl

theorem expandOnce : hkdfExpand x prk info 32 = .ok (x.hmacSha256 prk (info ++ [1])) := by
  have size : (x.hmacSha256 prk (info ++ [1])).length = 32 := x.digestLength _ _
  have whole : hkdfExpand x prk info 32 = expanded x prk info 32 := expandFrom x prk info 32 (n := 0) rfl
  rw [whole, expanded, if_pos (by decide), blocksTake x prk info (by decide : 1 ≤ 255) (by decide)]
  simp only [blocks, block, List.nil_append]
  rw [List.take_of_length_le (by rw [show UInt8.ofNat (0 + 1) = 1 from rfl, size])]
  rfl

end Expand

structure Source where
  secret : Bytes
  nonce : Bytes
  pluginId : Str
  deriving DecidableEq, Repr

abbrev Call := Bytes × Bytes

def Apart (x : Externals) (calls : List Call) : Prop :=
  ∀ a ∈ calls, ∀ b ∈ calls, x.hmacSha256 a.1 a.2 = x.hmacSha256 b.1 b.2 → a = b

namespace Source

def info (d : Source) : Bytes := ascii "vynkor-frame-mac-v1|" ++ (encode d.pluginId).getD []

section Key
variable (x : Externals) (d : Source)

def key : Except Error Bytes := deriveSessionKey x d.secret d.nonce d.pluginId

def calls : List Call := [(d.nonce, d.secret), (hkdfExtract x d.nonce d.secret, d.info ++ [1])]

theorem keyExact {key : Bytes} : d.key x = .ok key ↔
    Encodable d.pluginId ∧ key = x.hmacSha256 (hkdfExtract x d.nonce d.secret) (d.info ++ [1]) := by
  rw [Source.key, deriveSessionKey, encodeText, info]
  cases named : encode d.pluginId with
  | none =>
    have lone : ¬ Encodable d.pluginId := (encodeUndefined _).mp named
    exact ⟨fun made => (by cases made), fun h => absurd h.1 lone⟩
  | some name =>
    have whole : Encodable d.pluginId := (encodeDefined _).mp (by rw [named]; rfl)
    simp only [bind, Except.bind, expandOnce, Except.ok.injEq, Option.getD_some, whole, true_and]
    exact eq_comm

end Key

theorem keysApart {x : Externals} {d e : Source} {key : Bytes} (apart : Apart x (d.calls x ++ e.calls x))
    (first : d.key x = .ok key) (second : e.key x = .ok key) : d = e := by
  obtain ⟨named, made⟩ := (d.keyExact x).mp first
  obtain ⟨named', made'⟩ := (e.keyExact x).mp second
  have expands := apart (hkdfExtract x d.nonce d.secret, d.info ++ [1]) (by simp [calls])
    (hkdfExtract x e.nonce e.secret, e.info ++ [1]) (by simp [calls]) (made.symm.trans made')
  obtain ⟨prk, info⟩ := Prod.mk.inj expands
  have extracts := apart (d.nonce, d.secret) (by simp [calls]) (e.nonce, e.secret) (by simp [calls]) prk
  obtain ⟨nonce, secret⟩ := Prod.mk.inj extracts
  have names := List.append_cancel_left (List.append_cancel_right info)
  obtain ⟨raw, encoded⟩ := Option.isSome_iff_exists.mp ((encodeDefined _).mpr named)
  obtain ⟨raw', encoded'⟩ := Option.isSome_iff_exists.mp ((encodeDefined _).mpr named')
  rw [encoded, encoded', Option.getD_some, Option.getD_some] at names
  have ids := encodeInjective encoded (encoded'.trans (congrArg some names.symm))
  obtain ⟨secret', nonce', pluginId⟩ := d
  exact (Source.mk.injEq ..).mpr ⟨secret, nonce, ids⟩

end Source

def tagCall (key : Bytes) (flags : Nat) (target payload : Bytes) : Call :=
  (key, headerBytes flags payload.length target (crc32 payload) ++ payload)

section Frames
variable {x : Externals} {target : Str} {payload frame key : Bytes} {flags : Nat} {compress : Bool}

theorem taggedTwice {own rest : Bytes} {value : Nat × Bytes}
    (packed : packFrame x target payload flags (some key) compress = .ok frame)
    (read : ((asyncReadFrame x (some own)).run (frame ++ rest)).1 = .ok value) :
    ∃ t, targetBytes target = .ok t ∧
      x.hmacSha256 key (tagCall key (flags ||| flagMacPresent) t payload).2 =
        x.hmacSha256 own (tagCall own value.1 t value.2).2 := by
  obtain ⟨fits, ff, t, addressed⟩ := packFrameOk packed
  obtain ⟨f, made, rfl, -, tag⟩ := packFrameIsFrame (x := x) compress fits ff addressed (.inl rfl : (some key).isSome ∨ _)
  cases made.symm.trans packed
  rw [asyncOutcome] at read
  cases delivered : f.deliver x (some own) with
  | error e => simp [delivered, Except.mapError] at read
  | ok got =>
    rw [delivered] at read
    cases read
    obtain ⟨-, -, -, -, verified⟩ := acceptedVerifies delivered
    exact ⟨f.target, addressed, tag.symm.trans verified⟩

end Frames

def Next (transport : Transport) (inbox : Inbox) (frame : Bytes) : Prop :=
  match transport with
  | .uds => frame <+: inbox.stream
  | .ws => ∃ skipped rest later, inbox.messages = skipped ++ .binary (frame ++ rest) :: later ∧
      ∀ m ∈ skipped, m = .other ∨ ∃ data, m = .text data

section Reads
variable {x : Externals} {c : VynkorClient} {inbox rest : Inbox} {frame : Bytes} {value : Nat × Bytes}

theorem wsSkips {sessionKey : Option Bytes} {skipped later : List WsMessage}
    (passed : ∀ m ∈ skipped, m = .other ∨ ∃ data, m = .text data) :
    VynkorClient.wsRecvFrame x sessionKey (skipped ++ later) = VynkorClient.wsRecvFrame x sessionKey later := by
  induction skipped with
  | nil => rfl
  | cons m rest ih =>
    have others := ih fun m member => passed m (.tail _ member)
    rcases passed m List.mem_cons_self with rfl | ⟨data, rfl⟩ <;> exact others

theorem nextReads (next : Next c.transport inbox frame) (read : c.nextFrame x inbox = (.ok value, rest)) :
    ∃ tail, ((asyncReadFrame x c.sessionKey).run (frame ++ tail)).1 = .ok value := by
  unfold VynkorClient.nextFrame at read
  cases kind : c.transport with
  | uds =>
    rw [kind] at next
    obtain ⟨tail, whole⟩ := next
    simp only [kind] at read
    split at read
    · refine ⟨tail, ?_⟩
      rw [whole]
      exact congrArg Prod.fst read
    · cases read
  | ws =>
    rw [kind] at next
    obtain ⟨skipped, tail, later, whole, passed⟩ := next
    simp only [kind] at read
    split at read
    · rw [whole, wsSkips passed] at read
      cases got : readStream x c.sessionKey (frame ++ tail) with
      | error e => simp [VynkorClient.wsRecvFrame, readFrameFromBytes, got, Except.map, Except.mapError] at read
      | ok given =>
        obtain ⟨found, left⟩ := given
        simp only [VynkorClient.wsRecvFrame, readFrameFromBytes, got, Except.map, Except.mapError, Prod.mk.injEq,
          Except.ok.injEq] at read
        exact ⟨tail, by rw [streamReads.mp got, read.1]⟩
    · cases read

end Reads

structure Agreed (c : VynkorClient) (operations : List Operation) (reports : List Report) (own : Source) : Prop where
  secret : c.secret = some own.secret
  registered : ∃ r fault, .register r fault ∈ operations ∧ r.pluginId = own.pluginId
  acked : ∃ connection ack, .registered connection ack ∈ reports ∧ ack.sessionNonce = own.nonce

structure Provenance (x : Externals) (c : VynkorClient) (operations : List Operation) (reports : List Report) (s : Session) :
    Prop where
  secret : s.client.secret = c.secret
  waiting : ∀ pluginId, s.registering = some pluginId → ∃ r fault, .register r fault ∈ operations ∧ r.pluginId = pluginId
  keyed : ∀ key, s.client.sessionKey = some key → ∃ own : Source, own.key x = .ok key ∧ Agreed c operations reports own

section Runs
variable {x : Externals} {codec : Codec} {c : VynkorClient} {s t : Session} {op : Operation} {operations : List Operation}
  {reports emitted : List Report}

theorem agreedGrows {own : Source} (agreed : Agreed c operations reports own) (op : Operation) (emitted : List Report) :
    Agreed c (operations ++ [op]) (reports ++ emitted) own := by
  obtain ⟨secret, ⟨r, fault, member, same⟩, connection, ack, reported, nonce⟩ := agreed
  exact ⟨secret, ⟨r, fault, List.mem_append_left _ member, same⟩, connection, ack, List.mem_append_left _ reported, nonce⟩

theorem stepWaiting (move : s.step x codec op = some (t, emitted)) {pluginId : Str} (waiting : t.registering = some pluginId) :
    s.registering = some pluginId ∨ ∃ r fault, op = .register r fault ∧ r.pluginId = pluginId := by
  cases op with
  | connect | close | send _ _ _ _ =>
    cases move
    exact .inl waiting
  | recvCancelled prunedAt =>
    cases move
    contradiction
  | beginFragmented target payload chunkSize =>
    simp only [Session.step] at move
    split at move <;> cases move <;> exact .inl waiting
  | sendFragment call fault => exact .inl ((Session.sendFragmentKeeps move).2.symm.trans waiting)
  | register r fault =>
    simp only [Session.step, Session.register] at move
    repeat' split at move
    · contradiction
    · cases move
      exact .inr ⟨r, fault, rfl, Option.some.inj waiting⟩
    · cases move
      exact .inl waiting
  | recvFrame clock inbox =>
    have pair : s.recvFrame x codec clock inbox = (t, emitted) := Option.some.inj move
    unfold Session.recvFrame at pair
    repeat' split at pair
    all_goals cases pair
    all_goals first | contradiction | exact .inl waiting

theorem stepProvenance (before : Provenance x c operations reports s) (move : s.step x codec op = some (t, emitted)) :
    Provenance x c (operations ++ [op]) (reports ++ emitted) t := by
  have client := Session.stepClient move
  have waits : ∀ pluginId, t.registering = some pluginId →
      ∃ r fault, .register r fault ∈ operations ++ [op] ∧ r.pluginId = pluginId := by
    intro pluginId waiting
    rcases stepWaiting move waiting with earlier | ⟨r, fault, rfl, same⟩
    · obtain ⟨r, fault, member, same⟩ := before.waiting pluginId earlier
      exact ⟨r, fault, List.mem_append_left _ member, same⟩
    · exact ⟨r, fault, by simp, same⟩
  have kept (secret : t.client.secret = s.client.secret) (same : t.client.sessionKey = s.client.sessionKey) :
      Provenance x c (operations ++ [op]) (reports ++ emitted) t := by
    refine ⟨secret.trans before.secret, waits, fun key held => ?_⟩
    obtain ⟨own, derived, agreed⟩ := before.keyed key (same.symm.trans held)
    exact ⟨own, derived, agreedGrows agreed op emitted⟩
  obtain ⟨tc, plans, registering⟩ := t
  simp only at client
  cases client with
  | connected => exact kept rfl rfl
  | kept _ _ same => exact kept (by rw [same]) (by rw [same])
  | pruned => exact kept rfl rfl
  | turned turn => exact kept (by rw [Session.turnKeeps turn]) (by rw [Session.turnKeeps turn])
  | @keyed clock inbox flags payload after pluginId ack key waiting turn decoded derived =>
    have secret : after.secret = c.secret := by
      rw [Session.turnKeeps turn]
      exact before.secret
    obtain ⟨held, has, full, made⟩ := derived.derived
    refine ⟨secret, waits, fun other same => ?_⟩
    cases same
    obtain ⟨r, fault, member, same⟩ := before.waiting pluginId waiting
    exact ⟨⟨held, ack.sessionNonce, pluginId⟩, made, secret.symm.trans has, ⟨r, fault, List.mem_append_left _ member, same⟩,
      after.connection, ack, by simp, rfl⟩

/- A frame that was packed in some session, and that a client with a session key accepts
at any moment of any run, was packed in the client's own session: its secret, a nonce that
was acknowledged in this run, and a plugin id that was registered in it. -/
theorem replayRefused (x : Externals) (codec : Codec) (c : VynkorClient) (unkeyed : c.sessionKey = none)
    (run : Runs (Session.machine x codec) Always (.start c) operations reports s) (d : Source) {key : Bytes}
    (derived : d.key x = .ok key) {target : Str} {payload frame : Bytes} {flags : Nat} {compress : Bool}
    (packed : packFrame x target payload flags (some key) compress = .ok frame) {inbox rest : Inbox}
    (next : Next s.client.transport inbox frame) {value : Nat × Bytes} (read : s.client.nextFrame x inbox = (.ok value, rest)) :
    s.client.sessionKey = none ∨ ∃ own ownKey t, s.client.sessionKey = some ownKey ∧ own.key x = .ok ownKey ∧
      Agreed c operations reports own ∧ targetBytes target = .ok t ∧
      (Apart x (d.calls x ++ own.calls x ++
        [tagCall key (flags ||| flagMacPresent) t payload, tagCall ownKey value.1 t value.2]) → own = d) := by
  have base : Provenance x c [] [] (.start c) := by
    refine ⟨rfl, nofun, fun key held => ?_⟩
    have none : (Session.start c).client.sessionKey = none := unkeyed
    rw [none] at held
    contradiction
  have whole := runsTrace (Provenance x c) base (fun _ _ _ _ _ _ before _ move => stepProvenance before move) run
  cases held : s.client.sessionKey with
  | none => exact .inl rfl
  | some ownKey =>
    obtain ⟨own, made, agreed⟩ := whole.keyed ownKey held
    obtain ⟨tail, accepted⟩ := nextReads next read
    rw [held] at accepted
    obtain ⟨t, addressed, tags⟩ := taggedTwice packed accepted
    refine .inr ⟨own, ownKey, t, rfl, made, agreed, addressed, fun apart => ?_⟩
    have same := apart (tagCall key (flags ||| flagMacPresent) t payload) (by simp) (tagCall ownKey value.1 t value.2) (by simp) tags
    have keys : key = ownKey := congrArg Prod.fst same
    refine (Source.keysApart (fun a first b second => apart a ?_ b ?_) (keys ▸ derived) made).symm
    · exact List.mem_append_left _ first
    · exact List.mem_append_left _ second

end Runs

def samplePrk : Bytes :=
  [79, 98, 67, 108, 53, 206, 211, 165, 76, 82, 50, 129, 97, 38, 136, 226,
   188, 251, 153, 164, 241, 214, 208, 180, 180, 56, 152, 56, 174, 194, 253, 221]

def sampleSessionKey : Bytes :=
  [196, 190, 85, 238, 193, 193, 182, 241, 175, 66, 15, 184, 95, 187, 226, 249,
   227, 103, 165, 181, 71, 45, 184, 113, 7, 91, 103, 210, 77, 48, 72, 34]

def sampleSessionTag : Bytes :=
  [143, 171, 153, 162, 204, 102, 248, 222, 34, 241, 19, 148, 67, 170, 133, 41,
   162, 247, 251, 100, 6, 34, 169, 149, 49, 228, 52, 219, 30, 228, 212, 120]

def sampleDigests : List (Call × Bytes) :=
  [(([7], [1]), samplePrk), ((samplePrk, ascii "vynkor-frame-mac-v1|echo" ++ [1]), sampleSessionKey),
    ((sampleSessionKey, sampleTagged), sampleSessionTag)]

def sampleHmac (key message : Bytes) : Bytes :=
  match sampleDigests.find? fun d => d.1 = (key, message) with
  | some d => d.2
  | none => List.replicate 32 0

theorem sampleHmacLength (key message : Bytes) : (sampleHmac key message).length = 32 := by
  have sizes : ∀ d ∈ sampleDigests, d.2.length = 32 := by decide +kernel
  unfold sampleHmac
  split
  · rename_i d found
    exact sizes d (List.mem_of_find?_eq_some found)
  · exact List.length_replicate

def sampleHash : Externals := ⟨sampleHmac, sampleHmacLength, id, fun payload _ => .ok payload⟩

def sampleSource : Source := ⟨[1], [7], lit "echo"⟩

def sampleOperations : List Operation := [.register sampleRegistration none, .recvFrame ⟨0, 1⟩ ⟨sampleReply, []⟩]

def sampleReached : Option (Session × List Report) :=
  (Session.machine sampleHash (sampleAckCodec [7])).run (.start sampleSecured) sampleOperations

def sampleAccepts (c : VynkorClient) : Prop :=
  c.sessionKey = some sampleSessionKey ∧ c.transport = .uds ∧
    c.nextFrame sampleHash ⟨sampleTagged ++ sampleSessionTag, []⟩ = (.ok (1, ascii "ping"), ⟨[], []⟩)

def sampleAcked (report : Report) : Prop :=
  report.written.isSome = true ∨ report = .delivered 0 [0] ∨ report = .registered 1 (sampleAck [7])

instance (report : Report) : Decidable (sampleAcked report) := inferInstanceAs (Decidable (_ ∨ _))

theorem sampleReads : ∃ s reports, sampleReached = some (s, reports) ∧ sampleAccepts s.client ∧ ∀ r ∈ reports, sampleAcked r := by
  have there : sampleReached.isSome := by decide +kernel
  obtain ⟨⟨s, reports⟩, reached⟩ := Option.isSome_iff_exists.mp there
  have keyed : ∀ r ∈ sampleReached, r.1.client.sessionKey = some sampleSessionKey ∧ r.1.client.transport = .uds ∧
    r.1.client.streams = true := by decide +kernel
  have accepts : (asyncReadFrame sampleHash (some sampleSessionKey)).run (sampleTagged ++ sampleSessionTag) =
    (.ok (1, ascii "ping"), []) := by decide +kernel
  have acked : ∀ r ∈ sampleReached, ∀ report ∈ r.2, sampleAcked report := by decide +kernel
  obtain ⟨key, uds, opened⟩ := keyed (s, reports) reached
  refine ⟨s, reports, reached, ⟨key, uds, ?_⟩, acked (s, reports) reached⟩
  simp only at key uds opened
  simp only [VynkorClient.nextFrame, uds, opened, if_true, key, accepts]

def sampleCalls (t : Bytes) : List Call :=
  sampleSource.calls sampleHash ++ sampleSource.calls sampleHash ++
    [tagCall sampleSessionKey (0 ||| flagMacPresent) t (ascii "ping"), tagCall sampleSessionKey 1 t (ascii "ping")]

theorem sampleAgreed {reports : List Report} {own : Source} (acked : ∀ r ∈ reports, sampleAcked r)
    (agreed : Agreed sampleSecured sampleOperations reports own) : own = sampleSource := by
  obtain ⟨secret, nonce, pluginId⟩ := own
  obtain ⟨held, ⟨r, fault, registered, id⟩, connection, ack, reported, told⟩ := agreed
  have nonces : ack.sessionNonce = [7] := by
    rcases acked _ reported with written | delivered | same
    · cases written
    · cases delivered
    · cases same
      rfl
  have registers : r = sampleRegistration := by
    simp only [sampleOperations, List.mem_cons, Operation.register.injEq, reduceCtorEq, List.not_mem_nil, or_false] at registered
    exact registered.1
  rw [registers] at id
  cases held
  cases id
  exact (Source.mk.injEq ..).mpr ⟨rfl, told.symm.trans nonces, rfl⟩

theorem replayRefusedSample : ∃ reports own t, Agreed sampleSecured sampleOperations reports own ∧
    own.key sampleHash = .ok sampleSessionKey ∧ Apart sampleHash (sampleCalls t) ∧ own = sampleSource := by
  obtain ⟨s, reports, reached, ⟨keyed, uds, read⟩, acked⟩ := sampleReads
  have derived : sampleSource.key sampleHash = .ok sampleSessionKey := by decide +kernel
  have packed : packFrame sampleHash (lit "kernel") (ascii "ping") 0 (some sampleSessionKey) true =
    .ok (sampleTagged ++ sampleSessionTag) := by decide +kernel
  rcases replayRefused sampleHash (sampleAckCodec [7]) sampleSecured rfl (runsOfRun reached) sampleSource derived packed
    (by rw [uds]; exact List.prefix_refl _) read with none | ⟨own, key, t, held, made, agreed, addressed, same⟩
  · rw [keyed] at none
    contradiction
  · rw [keyed] at held
    cases held
    have named : targetBytes (lit "kernel") = .ok (sampleTagged.drop 8 |>.take 32) := by decide +kernel
    cases named.symm.trans addressed
    have apart : Apart sampleHash (sampleCalls (sampleTagged.drop 8 |>.take 32)) := by
      unfold Apart
      decide +kernel
    have calls := sampleAgreed acked agreed
    refine ⟨reports, own, _, agreed, made, apart, same ?_⟩
    rw [calls]
    exact apart

end Vynkor.SessionKeys
