import Vynkor.ConfirmationAgreement
import Vynkor.JsonRoundTrip

/-! The pending id on its way through `json`: from the gate to the requester in the reply
to `request_<op>`, and from the confirmer to the gate in the params of `confirm_<op>`. -/
namespace Vynkor.ConfirmationGate
open Octets (Bytes)
open Text Tables Labelled

/- `json.loads` reads the UTF-8 of an ASCII text that is a flat dict as the `json` module
documents it. -/
def ReadsJson (x : Externals) (floatRepr : Str → Str) : Prop :=
  ∀ s data members, Json.Ascii s → encode s = some data → Json.loads floatRepr s = some (.dict members) →
    (∀ m ∈ members, Json.flat m.2 = true) → x.loads data = .ok (.dict members)

def floatLimit : Nat := 256 ^ 128

def FloatRange (ttl : PyFloat) : Prop := ∀ n, ttl.toInt = .ok n → n.natAbs < floatLimit

section Reading
variable {x : Externals} {floatRepr : Str → Str}

theorem loadsInverts (reads : ReadsJson x floatRepr) {members : List (Str × Json.Scalar)} (distinct : (members.map Prod.fst).Nodup)
    (each : ∀ m ∈ members, Json.unsplit m.1 = true ∧ Json.faithfulScalar m.2 = true) : LoadsInverts x members := by
  intro data encoded
  have values : (members.map fun m => (m.1, scalarValue m.2)) = members.map fun m => (m.1, m.2.value) := by
    refine List.map_congr_left fun m _ => ?_
    cases m.2 <;> rfl
  have loaded := @Json.loadsText floatRepr _ (Json.dictFaithful distinct each)
  rw [← Json.dumpsText] at loaded
  rw [values]
  refine reads _ data _ (Json.dumpsAscii members) encoded loaded fun m member => ?_
  obtain ⟨n, -, rfl⟩ := List.mem_map.mp member
  cases n.2 <;> rfl

theorem intShort {n : Int} (small : n.natAbs < floatLimit) : Json.faithfulScalar (.int n) = true := by
  have digits {m : Nat} (bound : m < floatLimit) : ((decimal m).filter Json.isDigit).length ≤ Json.maxStrDigits := by
    have raised (k : Nat) (below : 3 * k ≤ Json.maxStrDigits) : (10 ^ 3) ^ k ≤ 10 ^ Json.maxStrDigits := by
      rw [← Nat.pow_mul]
      exact Nat.pow_le_pow_right (by decide) below
    have power : floatLimit ≤ 10 ^ Json.maxStrDigits :=
      (Nat.pow_le_pow_left (by decide) 128).trans (raised 128 (by decide))
    have short : (Nat.toDigits 10 m).length ≤ Json.maxStrDigits :=
      (Nat.length_toDigits_le_iff (by decide) (by decide)).mpr (Nat.lt_of_lt_of_le bound power)
    refine (List.length_filter_le _ _).trans ?_
    rwa [decimal, List.length_map]
  refine decide_eq_true ?_
  cases Json.signed n with
  | @plain m here text =>
    rw [text]
    exact digits (by omega)
  | @dash m here text =>
    rw [text, List.filter_cons_of_neg (by decide)]
    exact digits (by omega)

theorem pendingIdEncodable (millis : Int) (seq : Nat) : Text.Encodable (pendingId millis seq) := by
  unfold pendingId
  refine encodableAppend.mpr ⟨encodableAppend.mpr ⟨litEncodable _, scalarsEncodable _⟩, ?_⟩
  exact scalarsEncodable ('-' :: Nat.toDigits 10 seq)

theorem namesId (reads : ReadsJson x floatRepr) {id : Str} {data : Bytes}
    (encoded : encode (Json.dumps [(lit "pending_id", .str id)]) = some data) :
    parsePendingId x data = .ok id ↔ id ≠ [] ∧ Json.unsplit id = true := by
  have named := litEncodable "pending_id"
  have loaded := @Json.loadsOneText floatRepr _ (Json.unsplitEncodable named) id
  have read : x.loads data = .ok (.dict [(lit "pending_id", .str (Json.join (id.flatMap Json.pieces)))]) :=
    reads _ data _ (Json.dumpsAscii _) encoded loaded (by simp [Json.flat])
  have nonempty : data ≠ [] := by
    rintro rfl
    exact absurd (encodeNil encoded) (by simp [Json.dumps])
  rw [← Json.joinPieces]
  simp only [parsePendingId, nonempty, if_false, read, foundId]
  constructor
  · intro parsed
    split at parsed
    · cases parsed
    · rename_i known
      have same := Except.ok.inj parsed
      exact ⟨same ▸ known, same⟩
  · rintro ⟨known, same⟩
    rw [same, if_neg known]

end Reading

/- The requester gets the id under which the request is stored, and the gate is asked for
the id that the confirmer was given. -/
structure Exchange.HandsOver (e : Exchange) (x : Externals) (g : Gate) : Prop where
  stored : ∃ outcome, e.requested = .requested e.pendingId outcome
  asked : parsePendingId x e.confirm.paramsJson = .ok e.pendingId
  inverts : e.Inverts x g

section Exchanges
variable {x : Externals} {floatRepr : Str → Str} {g : Gate}

theorem repliedAnswering {req : ActionRequest} {id : Str} {envelopes : List Envelope}
    (answered : g.requestReply req id = .ok envelopes) : Answering g := by
  unfold Gate.requestReply at answered
  constructor
  · intro infinite
    simp [infinite, PyFloat.toInt, bind, Except.bind] at answered
  · intro undefined
    simp [undefined, PyFloat.toInt, bind, Except.bind] at answered

theorem replyInverts (reads : ReadsJson x floatRepr) (range : FloatRange g.pendingTtl) {id : Str} (named : Text.Encodable id)
    {ttlSecs : Int} (ttl : g.pendingTtl.toInt = .ok ttlSecs) :
    LoadsInverts x [(lit "pending_id", .str id), (lit "action", .str g.requestAction), (lit "ttl_secs", .int ttlSecs)] := by
  have action : Text.Encodable g.requestAction := encodableAppend.mpr ⟨litEncodable _, opEncodable g⟩
  have distinct : [lit "pending_id", lit "action", lit "ttl_secs"].Nodup := by decide +kernel
  refine loadsInverts reads distinct ?_
  simp only [List.forall_mem_cons]
  exact ⟨⟨Json.unsplitEncodable (litEncodable _), Json.unsplitEncodable named⟩,
    ⟨Json.unsplitEncodable (litEncodable _), Json.unsplitEncodable action⟩,
    ⟨Json.unsplitEncodable (litEncodable _), intShort (range _ ttl)⟩, by simp⟩

theorem requestedEncodable (answering : Answering g) {seq : Nat} {clock : Time} {calls : List Call} {deeds : List Deed} {s : Gating}
    (run : Runs (Gating.machine x g) Always (.start seq clock) calls deeds s) {req : ActionRequest} {readings : Readings}
    {id : Str} {outcome : Except Error (List Envelope)} (requested : .routed req readings (.requested id outcome) ∈ deeds) :
    Text.Encodable id := by
  have sound : Sound x g deeds s :=
    runsKeep (Sound x g) (startSound x g seq clock) (fun deeds s call t emitted ok _ move => stepSound answering ok move) run
  obtain ⟨⟨millis, n, -, rfl⟩, -⟩ := sound.numbered req readings id outcome requested
  exact pendingIdEncodable millis n

/- Whatever the operation and its callers, the id of a request comes through both dumps
as it is; an id that did not come from a gate does just where it is not empty and splits
no surrogate pair. -/
theorem idHandedOver (x : Externals) (floatRepr : Str → Str) (reads : ReadsJson x floatRepr) (g : Gate)
    (range : FloatRange g.pendingTtl) :
    (∀ seq clock calls deeds s, Runs (Gating.machine x g) Always (.start seq clock) calls deeds s →
      ∀ e : Exchange, e.Took x g deeds → e.HandsOver x g) ∧
    ∀ op id actionId caller req, sendConfirmation x op id actionId caller = .ok req →
      (parsePendingId x req.paramsJson = .ok id ↔ id ≠ [] ∧ Json.unsplit id = true) := by
  have params {op id actionId caller : Str} {req : ActionRequest} (sent : sendConfirmation x op id actionId caller = .ok req) :
      encode (Json.dumps [(lit "pending_id", .str id)]) = some req.paramsJson := by
    unfold sendConfirmation at sent
    split at sent
    · cases sent
    · rename_i data made
      cases sent
      exact encodeUtf8Ok.mp made
  constructor
  · intro seq clock calls deeds s run e took
    have inRequest : .routed e.request e.requestedAt e.requested ∈ deeds := by simp [took.history]
    have action : e.request.action = g.requestAction := by rw [took.asked]; rfl
    obtain ⟨text, gives⟩ := runsReplied run _ _ _ inRequest
    obtain ⟨id, gave⟩ := gives action
    have answered := took.answered
    simp only [gave, Routed.reply, Option.some.injEq] at answered
    have answering := repliedAnswering answered
    have named : Text.Encodable id := requestedEncodable answering run (gave ▸ inRequest)
    have inverts (ttlSecs : Int) (ttl : g.pendingTtl.toInt = .ok ttlSecs) : LoadsInverts x
        [(lit "pending_id", .str id), (lit "action", .str e.request.action), (lit "ttl_secs", .int ttlSecs)] := by
      rw [action]
      exact replyInverts reads range named ttl
    obtain ⟨rfl, known, -⟩ := requestReadsBack text inverts answered took.returned
    refine ⟨⟨_, gave⟩, ?_, ?_, ?_⟩
    · exact (namesId reads (params took.confirms)).mpr ⟨known, Json.unsplitEncodable named⟩
    · intro other outcome ttlSecs requested ttl
      rw [gave] at requested
      cases requested
      exact inverts ttlSecs ttl
    · refine loadsInverts reads (List.nodup_singleton _) ?_
      rw [List.forall_mem_singleton]
      exact ⟨Json.unsplitEncodable (litEncodable _), Json.unsplitEncodable named⟩
  · intro op id actionId caller req sent
    exact namesId reads (params sent)

end Exchanges

def sampleReader : Externals where
  loads data :=
    match Json.loads id (data.map fun b => .scalar (Char.ofNat b.toNat)) with
    | some v => .ok v
    | none => .error (lit "Expecting value: line 1 column 1 (char 0)")
  describe := sampleModule.describe

theorem asciiDecoded {s : Str} {data : Bytes} (ascii : Json.Ascii s) (encoded : encode s = some data) :
    (data.map fun b => CodePoint.scalar (Char.ofNat b.toNat)) = s := by
  induction s generalizing data with
  | nil =>
    cases encoded
    rfl
  | cons c later ih =>
    obtain ⟨u, rfl, small⟩ := ascii c List.mem_cons_self
    obtain ⟨rest, defined, rfl⟩ := Option.map_eq_some_iff.mp encoded
    have one : String.utf8EncodeChar u = [UInt8.ofNat u.toNat] := if_pos (Nat.le_of_lt_succ small)
    have back : (UInt8.ofNat u.toNat).toNat = u.toNat := by
      rw [UInt8.toNat_ofNat']
      omega
    rw [one, List.singleton_append, List.map_cons, ih (fun d member => ascii d (.tail _ member)) defined, back,
      Char.ofNat_toNat]

theorem sampleReads : ReadsJson sampleReader id := by
  intro s data members ascii encoded loaded flat
  simp only [sampleReader, asciiDecoded ascii encoded, loaded]

theorem idHandedOverSample : sampleExchange.HandsOver sampleReader (sampleGate (.finite 300)) := by
  have ran : ((Gating.machine sampleReader (sampleGate (.finite 300))).run (.start 0 0)
      [.route sampleTransfer sampleStored, .route sampleConfirm sampleTaken]).map Prod.snd = some (sampleDeeds (.finite 300)) := by
    decide +kernel
  obtain ⟨⟨s, deeds⟩, run, same⟩ := Option.map_eq_some_iff.mp ran
  cases same
  have took : sampleExchange.Took sampleReader (sampleGate (.finite 300)) (sampleDeeds (.finite 300)) := {
    history := rfl
    asked := by decide +kernel
    answered := by decide +kernel
    returned := by decide +kernel
    confirms := by decide +kernel
    allowed := by decide +kernel
    young := by decide +kernel
    others := by simp [sampleExchange, Untaken] }
  have range : FloatRange (sampleGate (.finite 300)).pendingTtl := by
    intro n whole
    have secs : PyFloat.toInt (.finite 300) = .ok 300 := by decide +kernel
    cases secs.symm.trans whole
    have room : 256 ^ 2 ≤ floatLimit := Nat.pow_le_pow_right (by decide) (by decide)
    exact Nat.lt_of_lt_of_le (by decide : 300 < 256 ^ 2) room
  exact (idHandedOver sampleReader id sampleReads (sampleGate (.finite 300)) range).1 0 0 _ _ s (runsOfRun run) _ took

end Vynkor.ConfirmationGate
