import Vynkor.ConcurrentLoop
import Vynkor.ReceiveCancellation
import Vynkor.ReplyDelivery
import Vynkor.RunOverWire

/-! `run_concurrent_loop` of `vynkor/concurrent.py` over its client: the `recv` task of an
iteration reads what has come, `asyncio.wait` may leave it to be cancelled, and what the
loop sends is packed. -/
namespace Vynkor.ConcurrentOverWire
open Octets (Bytes)
open Text Framing Reassembly ExactReader Labelled
open Plugin (Posted ReadsAs wired nextReads)

structure Drive where
  receiver : Receiver
  loop : Loop
  finished : Bool

/- `ends` and `timesOut` are inside `recv`, where the stream is over or the frame timeout
has come. -/
inductive Occasion where
  | arrives (data : Bytes)
  | finishes
  | iterates (now : Time)
  | resumes (now again : Time)
  | ends
  | timesOut
  | wakes
  | turns (turn : Turn) (fault : Option Str)

inductive Sign where
  | turned (turn : Turn)
  | happened (h : Happening)
  | wrote (frame : Bytes)

def result (codec : Codec) : Received → Option (Except Error Envelope)
  | .frame _ _ _ (.ok none) => none
  | .frame _ _ _ (.ok (some (flags, payload))) => some (VynkorClient.decodeEnvelope codec flags payload)
  | .frame _ _ _ (.error e) | .failed e => some (.error e)

def sent : Happening → Option Envelope
  | .handed reply => some reply.envelope
  | .own envelope => some envelope
  | _ => none

def aside : Turn → Bool
  | .iterate | .received _ | .waitRaised | .wake | .loserRaised => false
  | _ => true

namespace Drive

def start (c : VynkorClient) (clock : Time) : Drive := ⟨.start c clock, .start, false⟩

section Step
variable (x : Externals) (codec : Codec)

def writes (s : Drive) (fault : Option Str) (happened : List Happening) : List Bytes :=
  (happened.filterMap sent).flatMap fun envelope => (s.receiver.client.send x codec (lit "kernel") envelope fault).1

def turn (s : Drive) (turn : Turn) (fault : Option Str) : Option (Drive × List Sign) :=
  (s.loop.step turn).map fun (loop, happened) =>
    ({ s with loop }, .turned turn :: (happened.map .happened ++ (s.writes x codec fault happened).map .wrote))

def act (s : Drive) : Occasion → Option (Drive × Option (Turn × Option Str))
  | .arrives data =>
    if s.finished then none
    else some ({ s with receiver := { s.receiver with unread := s.receiver.unread ++ data } }, none)
  | .finishes => some ({ s with finished := true }, none)
  | .iterates now => (s.receiver.step x (.call now)).map fun (receiver, _) => ({ s with receiver }, some (.iterate, none))
  | .resumes now again =>
    (s.receiver.resume x now again).map fun (receiver, received) =>
      ({ s with receiver }, (received.head?.bind (result codec)).map fun outcome => (.received outcome, none))
  | .ends =>
    if s.finished ∧ s.receiver.blocked then
      some ({ s with receiver := { s.receiver with unread := [], reading := none } },
        some (.received (.error .incompleteRead), none))
    else none
  | .timesOut =>
    (s.receiver.step x .frameTimeout).map fun (receiver, _) =>
      ({ s with receiver }, some (.received (.error .frameReadTimeout), none))
  | .wakes =>
    match s.loop.control with
    | .waiting none (some _) =>
      (s.receiver.step x .cancel).map fun (receiver, _) => ({ s with receiver }, some (.wake, none))
    | _ => some (s, some (.wake, none))
  | .turns turn fault => if aside turn then some (s, some (turn, fault)) else none

def step (s : Drive) (o : Occasion) : Option (Drive × List Sign) :=
  match s.act x codec o with
  | none => none
  | some (s, none) => some (s, [])
  | some (s, some (turn, fault)) => s.turn x codec turn fault

end Step

def tears (s : Drive) : Bool :=
  match s.loop.control, s.receiver.reading with
  | .waiting none (some _), some r => r.started
  | _, _ => false

def Unbroken (s : Drive) : Occasion → Prop
  | .wakes => s.tears = false
  | _ => True

instance (s : Drive) (o : Occasion) : Decidable (Unbroken s o) := by
  unfold Unbroken
  split <;> infer_instance

end Drive

def drive (x : Externals) (codec : Codec) : Machine Drive Occasion Sign := ⟨Drive.step x codec⟩

def Sign.turn : Sign → Option Turn
  | .turned turn => some turn
  | _ => none

def Sign.happening : Sign → Option Happening
  | .happened h => some h
  | _ => none

def Sign.frame : Sign → Option Bytes
  | .wrote frame => some frame
  | _ => none

def turnsOf (signs : List Sign) : List Turn := signs.filterMap Sign.turn
def happenedOf (signs : List Sign) : List Happening := signs.filterMap Sign.happening
def writtenOf (signs : List Sign) : List Bytes := signs.filterMap Sign.frame

def sentOf (happened : List Happening) : List Envelope := happened.filterMap sent

def Turn.taken : Turn → Option Envelope
  | .received (.ok envelope) => some envelope
  | _ => none

def takenOf (turns : List Turn) : List Envelope := turns.filterMap Turn.taken

def Occasion.data : Occasion → Bytes
  | .arrives data => data
  | _ => []

def arrivedOf (occasions : List Occasion) : Bytes := occasions.flatMap Occasion.data

theorem arrivedAppend (occasions : List Occasion) (o : Occasion) :
    arrivedOf (occasions ++ [o]) = arrivedOf occasions ++ o.data := by
  simp [arrivedOf]

theorem takenAppend (turns : List Turn) (turn : Turn) : takenOf (turns ++ [turn]) = takenOf turns ++ (Turn.taken turn).toList := by
  unfold takenOf
  rw [List.filterMap_append]
  cases h : Turn.taken turn <;> simp [h]

inductive Moves (x : Externals) (codec : Codec) (s : Drive) (o : Occasion) : Drive → List Sign → Prop where
  | still {t} (act : s.act x codec o = some (t, none)) : Moves x codec s o t []
  | turned {base turn fault loop happened signs} (act : s.act x codec o = some (base, some (turn, fault)))
      (step : base.loop.step turn = some (loop, happened)) (turns : turnsOf signs = [turn])
      (happens : happenedOf signs = happened) (wrote : writtenOf signs = base.writes x codec fault happened) :
      Moves x codec s o { base with loop } signs

section Steps
variable {x : Externals} {codec : Codec} {s t : Drive} {o : Occasion} {signs : List Sign}

theorem stepMoves (moved : s.step x codec o = some (t, signs)) : Moves x codec s o t signs := by
  unfold Drive.step at moved
  split at moved
  · contradiction
  · rename_i base act
    cases moved
    exact .still act
  · rename_i base turn fault act
    obtain ⟨⟨loop, happened⟩, step, same⟩ := Option.map_eq_some_iff.mp moved
    cases same
    refine .turned act step ?_ ?_ ?_
    · simp [turnsOf, Sign.turn, List.filterMap_map, Function.comp_def]
    · rw [happenedOf, List.filterMap_cons_none rfl]
      simp [Sign.happening, List.filterMap_map, Function.comp_def]
    · rw [writtenOf, List.filterMap_cons_none rfl]
      simp [Sign.frame, List.filterMap_map, Function.comp_def]

end Steps

def waits : Control → Bool
  | .waiting none _ => true
  | _ => false

def lost : Control → Bool
  | .waiting (some (.error _)) _ | .woken (some (.error _)) _ | .flushing | .returned => true
  | _ => false

section Turns
variable {s t : Loop} {turn : Turn} {happened : List Happening}

theorem asideGoes {before after : Control} (leaves : aside turn = true) (goes : Goes before turn happened after) :
    waits after = waits before ∧ (lost before = true → lost after = true) := by
  cases goes with
  | iterate | received | waitRaised | wake | loserRaised _ => cases leaves
  | lost => exact ⟨rfl, fun _ => rfl⟩
  | ping | pluginShutdown | rejected _ | unsaid _ | escapes | event | passedOver | message _ | handed | eventRaised | acked
  | messageRaised | messageDone | replied => exact ⟨rfl, nofun⟩

theorem asideKeeps (leaves : aside turn = true) (move : s.step turn = some (t, happened)) :
    waits t.control = waits s.control ∧ (lost s.control = true → lost t.control = true) := by
  cases stepSteps move with
  | goes goes => exact asideGoes leaves goes
  | @got received _ _ waiting _ =>
    rw [waiting]
    cases received with
    | none => exact ⟨rfl, nofun⟩
    | some outcome => cases outcome <;> exact ⟨rfl, id⟩
  | accepted woken =>
    rw [woken]
    exact ⟨rfl, nofun⟩
  | emptied draining _ =>
    rw [draining]
    exact ⟨rfl, nofun⟩
  | returned flushing _ =>
    rw [flushing]
    exact ⟨rfl, fun _ => rfl⟩
  | drained | completed | put => exact ⟨rfl, id⟩

theorem iterateMoves (move : s.step .iterate = some (t, happened)) :
    s.control = .top ∧ t = { s with control := .waiting none none } := by
  generalize label : Turn.iterate = turn at move
  cases stepSteps move with
  | @goes _ _ control goes =>
    generalize before : s.control = control at goes
    cases goes <;> cases label
    exact ⟨rfl, rfl⟩
  | _ => cases label

theorem receivedMoves {outcome : Except Error Envelope} (move : s.step (.received outcome) = some (t, happened)) :
    ∃ got, s.control = .waiting none got ∧ t = { s with control := .waiting (some outcome) got } := by
  generalize label : Turn.received outcome = turn at move
  cases stepSteps move with
  | @goes _ _ control goes =>
    generalize before : s.control = control at goes
    cases goes <;> cases label
    exact ⟨_, rfl, rfl⟩
  | _ => cases label

theorem wakeMoves (move : s.step .wake = some (t, happened)) :
    ∃ received got, s.control = .waiting received got ∧ (received.isSome ∨ got.isSome) ∧
      t = { s with control := .woken received got } := by
  simp only [Loop.step] at move
  split at move
  · rename_i received got control
    split at move
    · rename_i done
      cases move
      exact ⟨received, got, control, done, rfl⟩
    · contradiction
  · contradiction

theorem waitsHolds {control : Control} (waiting : waits control = true) : ∃ got, control = .waiting none got := by
  cases control with
  | waiting received got =>
    cases received with
    | none => exact ⟨got, rfl⟩
    | some outcome => cases waiting
  | _ => cases waiting

end Turns

inductive Place (x : Externals) (key : Option Bytes) (frames : List Bytes) (n : Nat) (arrived : Bytes) (s : Drive) : Prop where
  | idle (reading : s.receiver.reading = none) (away : waits s.loop.control = false)
      (unread : arrived = (frames.take n).flatten ++ s.receiver.unread)
  | reading {r taken} (reading : s.receiver.reading = some r) (waiting : waits s.loop.control = true)
      (begun : Reader.Resumes (asyncReadFrame x key) taken r.program) (fresh : r.started = false → taken = [])
      (unread : arrived = (frames.take n).flatten ++ (taken ++ s.receiver.unread))
  | failed (reading : s.receiver.reading = none) (lost : lost s.loop.control = true)

theorem stillAhead {frames : List Bytes} {n : Nat} {here future : Bytes}
    (ahead : ((frames.take n).flatten ++ here) ++ future = frames.flatten) : here ++ future = (frames.drop n).flatten := by
  have cut : frames.flatten = (frames.take n).flatten ++ (frames.drop n).flatten := by
    rw [← List.flatten_append, List.take_append_drop]
  rw [cut, List.append_assoc] at ahead
  exact List.append_cancel_left ahead

section Reading
variable {x : Externals} {codec : Codec} {secret key : Option Bytes} {pluginId : Option Str} {envelopes : List Envelope}
  {frames : List Bytes}

inductive Reads (x : Externals) (codec : Codec) (key : Option Bytes) (envelopes : List Envelope) (frames : List Bytes) (n : Nat)
    (s t : Receiver) (taken : Bytes) : List Received → Prop where
  | goesOn {r chunk} (reading : t.reading = some r) (started : r.started = true)
      (begun : Reader.Resumes (asyncReadFrame x key) (taken ++ chunk) r.program) (unread : s.unread = chunk ++ t.unread) :
      Reads x codec key envelopes frames n s t taken []
  | returns {received envelope frame} (reading : t.reading = none)
      (result : result codec received = some (.ok envelope)) (unread : taken ++ s.unread = frame ++ t.unread)
      (framed : frames.take (n + 1) = frames.take n ++ [frame])
      (spoken : envelopes.take (n + 1) = envelopes.take n ++ [envelope]) :
      Reads x codec key envelopes frames n s t taken [received]

theorem resumeReads (lossless : Lossless x) (posted : List.Forall₂ (Posted x codec key) envelopes frames) {n : Nat}
    {s t : Receiver} {r : Reading} {taken future : Bytes} {now again : Time} {received : List Received}
    (client : s.client = wired secret pluginId key) (reading : s.reading = some r)
    (begun : Reader.Resumes (asyncReadFrame x key) taken r.program)
    (ahead : taken ++ s.unread ++ future = (frames.drop n).flatten) (move : s.resume x now again = some (t, received)) :
    t.client = wired secret pluginId key ∧ Reads x codec key envelopes frames n s t taken received := by
  have further {r' count next} (here : s.reading = some r') (pending : r'.program = .exactly count next)
      (enough : count ≤ s.unread.length) :
      Reader.Resumes (asyncReadFrame x key) (taken ++ s.unread.take count) (next (s.unread.take count)) := by
    cases reading.symm.trans here
    rw [pending] at begun
    exact .read _ begun (by simp [enough])
  have along (count : Nat) : (taken ++ s.unread.take count) ++ (s.unread.drop count ++ future) = (frames.drop n).flatten := by
    rw [← ahead, List.append_assoc, ← List.append_assoc (s.unread.take count), List.take_append_drop, List.append_assoc]
  cases resumeCases move with
  | @finished r' count next flags payload _ _ here pending enough order done result =>
    have ran := Reader.resumedRun (further here pending enough) []
    rw [done, List.append_nil] at ran
    rcases nextReads lossless posted (along count) with waits | ⟨envelope, frame, left, read, whole, decoded, framed, spoken⟩
    · rw [ran] at waits
      cases waits
    · cases ran.symm.trans read
      have plain := (Plugin.announcedPlain key).1
      have took : (s.consume count now).take now (announced key 0) (codec.serialize envelope) =
          (.ok (some (announced key 0, codec.serialize envelope)),
            { s.consume count now with clock := now, reading := none }) := by
        simp [Receiver.take, Receiver.consume, VynkorClient.acceptFrame, plain]
      simp only [Receiver.finish, took] at result
      cases result
      refine ⟨client, .returns rfl (congrArg some decoded) ?_ framed spoken⟩
      rw [List.append_nil] at whole
      rw [← whole, List.append_assoc]
      exact congrArg (taken ++ ·) (List.take_append_drop count s.unread).symm
  | @failed r' count next e here pending enough raised =>
    have ran := Reader.resumedRun (further here pending enough) []
    rw [raised, List.append_nil] at ran
    rcases nextReads lossless posted (along count) with waits | ⟨envelope, frame, left, read, -, -, -, -⟩
    · rw [ran] at waits
      cases waits
    · cases ran.symm.trans read
  | @goesOn r' count next here pending enough order =>
    exact ⟨client, .goesOn rfl rfl (further here pending enough) (List.take_append_drop count s.unread).symm⟩

theorem resumeWaits {s t : Receiver} {now again : Time} {received : List Received} (move : s.resume x now again = some (t, received)) :
    ∃ r, s.reading = some r := by
  cases resumeCases move with
  | finished reading | failed reading | goesOn reading => exact ⟨_, reading⟩

theorem calledMoves {s t : Receiver} {now : Time} {received : List Received} (move : s.step x (.call now) = some (t, received)) :
    t = s.turn x now := by
  simp only [Receiver.step] at move
  split at move
  · cases move
    rfl
  · contradiction

theorem cancelledMoves {s t : Receiver} {received : List Received} (move : s.step x .cancel = some (t, received)) :
    t = { s with reading := none } := by
  simp only [Receiver.step] at move
  split at move
  · cases move
    rfl
  · contradiction

theorem timedOutMoves {s t : Receiver} {received : List Received} (move : s.step x .frameTimeout = some (t, received)) :
    t = { s with reading := none } := by
  simp only [Receiver.step] at move
  split at move
  · cases move
    rfl
  · contradiction

end Reading

section Acts
variable {x : Externals} {codec : Codec} {secret key : Option Bytes} {pluginId : Option Str} {envelopes : List Envelope}
  {frames : List Bytes} {n : Nat} {arrived future : Bytes} {s t : Drive} {o : Occasion}

theorem placeKept (place : Place x key frames n arrived s) {data : Bytes} (reading : t.receiver.reading = s.receiver.reading)
    (unread : t.receiver.unread = s.receiver.unread ++ data) (waiting : waits t.loop.control = waits s.loop.control)
    (gone : lost s.loop.control = true → lost t.loop.control = true) : Place x key frames n (arrived ++ data) t := by
  cases place with
  | idle idle away before =>
    exact .idle (reading.trans idle) (waiting.trans away) (by rw [before, unread, List.append_assoc])
  | reading outstanding waited begun fresh before =>
    refine .reading (reading.trans outstanding) (waiting.trans waited) begun fresh ?_
    rw [before, unread, List.append_assoc, List.append_assoc]
  | failed idle before => exact .failed (reading.trans idle) (gone before)

structure Settled (x : Externals) (key secret : Option Bytes) (pluginId : Option Str) (frames : List Bytes) (n : Nat)
    (arrived : Bytes) (s t : Drive) : Prop where
  place : Place x key frames n arrived t
  client : t.receiver.client = wired secret pluginId key
  finished : s.finished = true → t.finished = true

theorem resumedReads (lossless : Lossless x) (posted : List.Forall₂ (Posted x codec key) envelopes frames)
    (place : Place x key frames n arrived s) (client : s.receiver.client = wired secret pluginId key)
    (ahead : arrived ++ future = frames.flatten) {now again : Time} {receiver : Receiver} {received : List Received}
    (move : s.receiver.resume x now again = some (receiver, received)) :
    ∃ taken, waits s.loop.control = true ∧ arrived = (frames.take n).flatten ++ (taken ++ s.receiver.unread) ∧
      receiver.client = wired secret pluginId key ∧ Reads x codec key envelopes frames n s.receiver receiver taken received := by
  obtain ⟨r, here⟩ := resumeWaits move
  cases place with
  | idle reading _ _ | failed reading _ => cases reading.symm.trans here
  | @reading r taken reading waiting begun fresh unread =>
    rw [unread] at ahead
    exact ⟨taken, waiting, unread, resumeReads lossless posted client reading begun (stillAhead ahead) move⟩

theorem stillSettled (lossless : Lossless x) (posted : List.Forall₂ (Posted x codec key) envelopes frames)
    (place : Place x key frames n arrived s) (client : s.receiver.client = wired secret pluginId key)
    (ahead : arrived ++ future = frames.flatten) (act : s.act x codec o = some (t, none)) :
    t.loop = s.loop ∧ Settled x key secret pluginId frames n (arrived ++ o.data) s t := by
  cases o with
  | arrives data =>
    simp only [Drive.act] at act
    split at act
    · contradiction
    · cases act
      exact ⟨rfl, placeKept place rfl rfl rfl id, client, id⟩
  | finishes =>
    cases act
    exact ⟨rfl, placeKept place rfl (List.append_nil _).symm rfl id, client, fun _ => rfl⟩
  | resumes now again =>
    obtain ⟨⟨receiver, received⟩, move, same⟩ := Option.map_eq_some_iff.mp act
    obtain ⟨rfl, none⟩ := Prod.mk.inj same
    obtain ⟨taken, waiting, unread, kept, reads⟩ := resumedReads lossless posted place client ahead move
    rw [show arrived ++ (Occasion.resumes now again).data = arrived from List.append_nil _]
    cases reads with
    | goesOn later started further consumed =>
      refine ⟨rfl, .reading later waiting further (fun fresh => ?_) ?_, kept, id⟩
      · rw [fresh] at started
        cases started
      · rw [unread, consumed, List.append_assoc taken]
    | returns _ result _ _ _ => simp [result] at none
  | iterates _ | timesOut =>
    obtain ⟨_, _, same⟩ := Option.map_eq_some_iff.mp act
    cases same
  | ends =>
    simp only [Drive.act] at act
    split at act <;> cases act
  | wakes =>
    simp only [Drive.act] at act
    split at act
    · obtain ⟨_, _, same⟩ := Option.map_eq_some_iff.mp act
      cases same
    · cases act
  | turns turn fault =>
    simp only [Drive.act] at act
    split at act <;> cases act

def Fails (s : Drive) (e : Error) : Prop := e = .frameReadTimeout ∨ e = .incompleteRead ∧ s.finished = true

section Turned
variable {loop : Loop} {happened : List Happening}

theorem failedSettled {e : Error} (step : t.loop.step (.received (.error e)) = some (loop, happened))
    (reading : t.receiver.reading = none) (client : t.receiver.client = wired secret pluginId key)
    (finished : s.finished = true → t.finished = true) : Settled x key secret pluginId frames n arrived s { t with loop } := by
  obtain ⟨got, -, rfl⟩ := receivedMoves step
  exact ⟨.failed reading rfl, client, finished⟩

theorem iterateSettled (place : Place x key frames n arrived s) (client : s.receiver.client = wired secret pluginId key)
    (now : Time) (step : s.loop.step .iterate = some (loop, happened)) :
    Settled x key secret pluginId frames n arrived s { s with receiver := s.receiver.turn x now, loop } := by
  obtain ⟨top, rfl⟩ := iterateMoves step
  refine ⟨?_, ?_, id⟩
  · cases place with
    | idle _ _ unread =>
      have start : asyncReadFrame x s.receiver.client.sessionKey = asyncReadFrame x key := by rw [client]; rfl
      exact .reading rfl rfl (by rw [start]; exact .start) (fun _ => rfl) unread
    | reading _ waiting _ _ _ => rw [top] at waiting; cases waiting
    | failed _ gone => rw [top] at gone; cases gone
  · simp only [Receiver.turn, client]
    rfl

theorem cancelSettled {got : Reply} (place : Place x key frames n arrived s)
    (client : s.receiver.client = wired secret pluginId key) (control : s.loop.control = .waiting none (some got))
    (unbroken : s.tears = false) (step : s.loop.step .wake = some (loop, happened)) :
    Settled x key secret pluginId frames n arrived s { s with receiver := { s.receiver with reading := none }, loop } := by
  obtain ⟨received, later, before, -, rfl⟩ := wakeMoves step
  cases before.symm.trans control
  refine ⟨?_, client, id⟩
  cases place with
  | idle reading away unread => exact .idle rfl rfl unread
  | @reading r taken reading waiting begun fresh unread =>
    have whole : r.started = false := by simpa [Drive.tears, control, reading] using unbroken
    rw [fresh whole, List.nil_append] at unread
    exact .idle rfl rfl unread
  | failed _ gone =>
    rw [control] at gone
    cases gone

theorem wakeSettled (place : Place x key frames n arrived s) (client : s.receiver.client = wired secret pluginId key)
    (other : ∀ got, s.loop.control = .waiting none (some got) → False)
    (step : s.loop.step .wake = some (loop, happened)) : Settled x key secret pluginId frames n arrived s { s with loop } := by
  obtain ⟨received, got, before, done, rfl⟩ := wakeMoves step
  refine ⟨?_, client, id⟩
  cases place with
  | idle reading away unread => exact .idle reading rfl unread
  | reading reading waiting begun fresh unread =>
    obtain ⟨reply, here⟩ := waitsHolds waiting
    cases before.symm.trans here
    cases got with
    | none => simp at done
    | some reply => exact absurd here (other reply)
  | failed reading gone =>
    rw [before] at gone
    refine .failed reading ?_
    cases received with
    | none => cases gone
    | some outcome => cases outcome with
      | ok _ => cases gone
      | error _ => rfl

theorem turnSettled {turn : Turn} {fault : Option Str} (lossless : Lossless x)
    (posted : List.Forall₂ (Posted x codec key) envelopes frames) (place : Place x key frames n arrived s)
    (client : s.receiver.client = wired secret pluginId key) (ahead : arrived ++ future = frames.flatten)
    (unbroken : s.Unbroken o) (act : s.act x codec o = some (t, some (turn, fault)))
    (step : t.loop.step turn = some (loop, happened)) :
    t.loop = s.loop ∧ (∀ e, turn = .received (.error e) → Fails t e) ∧
      ∃ m, envelopes.take m = envelopes.take n ++ (Turn.taken turn).toList ∧
        Settled x key secret pluginId frames m (arrived ++ o.data) s { t with loop } := by
  cases o with
  | arrives data =>
    simp only [Drive.act] at act
    split at act <;> cases act
  | finishes => cases act
  | iterates now =>
    obtain ⟨⟨receiver, _⟩, move, same⟩ := Option.map_eq_some_iff.mp act
    cases same
    cases calledMoves move
    rw [show arrived ++ (Occasion.iterates now).data = arrived from List.append_nil _]
    exact ⟨rfl, nofun, n, (List.append_nil _).symm, iterateSettled place client now step⟩
  | resumes now again =>
    obtain ⟨⟨receiver, received⟩, move, same⟩ := Option.map_eq_some_iff.mp act
    obtain ⟨rfl, some⟩ := Prod.mk.inj same
    obtain ⟨taken, waiting, unread, kept, reads⟩ := resumedReads lossless posted place client ahead move
    rw [show arrived ++ (Occasion.resumes now again).data = arrived from List.append_nil _]
    cases reads with
    | goesOn later started further consumed => cases some
    | returns later result consumed framed spoken =>
      simp only [List.head?_cons, Option.bind_some, result, Option.map_some] at some
      cases some
      obtain ⟨got, -, rfl⟩ := receivedMoves step
      refine ⟨rfl, nofun, n + 1, spoken, .idle later rfl ?_, kept, id⟩
      rw [unread, consumed, framed, List.flatten_append, List.flatten_cons, List.flatten_nil, List.append_nil, List.append_assoc]
  | ends =>
    simp only [Drive.act] at act
    split at act
    · rename_i ended
      cases act
      refine ⟨rfl, fun e same => ?_, n, (List.append_nil _).symm, failedSettled step rfl client id⟩
      cases same
      exact .inr ⟨rfl, ended.1⟩
    · contradiction
  | timesOut =>
    obtain ⟨⟨receiver, _⟩, move, same⟩ := Option.map_eq_some_iff.mp act
    cases same
    cases timedOutMoves move
    refine ⟨rfl, fun e same => ?_, n, (List.append_nil _).symm, failedSettled step rfl client id⟩
    cases same
    exact .inl rfl
  | wakes =>
    simp only [Drive.act] at act
    rw [show arrived ++ Occasion.wakes.data = arrived from List.append_nil _]
    split at act
    · rename_i got control
      obtain ⟨⟨receiver, _⟩, move, same⟩ := Option.map_eq_some_iff.mp act
      cases same
      cases cancelledMoves move
      exact ⟨rfl, nofun, n, (List.append_nil _).symm, cancelSettled place client control unbroken step⟩
    · rename_i other
      cases act
      exact ⟨rfl, nofun, n, (List.append_nil _).symm, wakeSettled place client other step⟩
  | turns turn fault =>
    simp only [Drive.act] at act
    split at act
    · rename_i leaves
      cases act
      obtain ⟨waiting, gone⟩ := asideKeeps leaves step
      refine ⟨rfl, fun e same => ?_, n, ?_, placeKept place rfl (List.append_nil _).symm waiting gone, client, id⟩
      · rw [same] at leaves
        cases leaves
      · cases turn <;> first | exact (List.append_nil _).symm | cases leaves
    · contradiction

end Turned
end Acts

def fitting (codec : Codec) (envelopes : List Envelope) : List Envelope :=
  envelopes.filter fun envelope => (codec.serialize envelope).length ≤ maxPayload

section Run
variable {x : Externals} {codec : Codec} {secret key : Option Bytes} {pluginId : Option Str} {envelopes : List Envelope}
  {frames : List Bytes} {occasions : List Occasion} {signs emitted : List Sign} {s t : Drive} {o : Occasion}

theorem writesRead (lossless : Lossless x) (client : s.receiver.client = wired secret pluginId key) (fault : Option Str)
    (happened : List Happening) :
    List.Forall₂ (ReadsAs x codec key) (fitting codec (sentOf happened)) (s.writes x codec fault happened) := by
  unfold Drive.writes
  rw [client, ← sentOf]
  induction sentOf happened with
  | nil => exact .nil
  | cons envelope rest ih =>
    rw [List.flatMap_cons]
    rcases Plugin.wiredSends x codec secret key pluginId envelope fault with ⟨e, unsent, failed⟩ | ⟨frame, outcome, sent, packed⟩
    · have unfit : ¬ (codec.serialize envelope).length ≤ maxPayload := fun fits => by
        obtain ⟨frame, packed⟩ := (ReplyDelivery.packFits (x := x) (codec.serialize envelope) key true).mpr fits
        exact absurd (failed.symm.trans packed) nofun
      rw [unsent, List.nil_append, fitting, List.filter_cons_of_neg (by simpa using unfit)]
      exact ih
    · have fits := (ReplyDelivery.packFits (codec.serialize envelope) key true).mp ⟨frame, packed⟩
      rw [sent, fitting, List.filter_cons_of_pos (by simpa using fits)]
      exact .cons (Plugin.packedReads lossless packed) ih

structure Kept (x : Externals) (codec : Codec) (secret key : Option Bytes) (pluginId : Option Str) (envelopes : List Envelope)
    (frames : List Bytes) (occasions : List Occasion) (signs : List Sign) (s : Drive) : Prop where
  loop : Runs Loop.machine Always .start (turnsOf signs) (happenedOf signs) s.loop
  client : s.receiver.client = wired secret pluginId key
  place : ∃ n, takenOf (turnsOf signs) = envelopes.take n ∧ Place x key frames n (arrivedOf occasions) s
  lost : ∀ e, .received (.error e) ∈ turnsOf signs → Fails s e
  written : List.Forall₂ (ReadsAs x codec key) (fitting codec (sentOf (happenedOf signs))) (writtenOf signs)

theorem failsLater {e : Error} (finished : s.finished = true → t.finished = true) (fails : Fails s e) : Fails t e :=
  fails.imp id (And.imp id finished)

theorem startKept (clock : Time) : Kept x codec secret key pluginId envelopes frames [] [] (.start (wired secret pluginId key) clock) where
  loop := .idle
  client := rfl
  place := ⟨0, rfl, .idle rfl rfl rfl⟩
  lost := fun _ member => absurd member List.not_mem_nil
  written := .nil

theorem stepKept (lossless : Lossless x) (posted : List.Forall₂ (Posted x codec key) envelopes frames)
    (kept : Kept x codec secret key pluginId envelopes frames occasions signs s) (ahead : arrivedOf occasions <+: frames.flatten)
    (unbroken : s.Unbroken o) (moved : s.step x codec o = some (t, emitted)) :
    Kept x codec secret key pluginId envelopes frames (occasions ++ [o]) (signs ++ emitted) t := by
  obtain ⟨n, taken, place⟩ := kept.place
  obtain ⟨future, ahead⟩ := ahead
  cases stepMoves moved with
  | still act =>
    obtain ⟨same, settled⟩ := stillSettled lossless posted place kept.client ahead act
    rw [List.append_nil]
    refine ⟨same ▸ kept.loop, settled.client, ⟨n, taken, ?_⟩, fun e member => failsLater settled.finished (kept.lost e member),
      kept.written⟩
    rw [arrivedAppend]
    exact settled.place
  | @turned base turn fault loop happened _ act step turns happens wrote =>
    obtain ⟨same, fails, m, spoken, settled⟩ := turnSettled lossless posted place kept.client ahead unbroken act step
    have told : turnsOf (signs ++ emitted) = turnsOf signs ++ [turn] := List.filterMap_append.trans (congrArg _ turns)
    have happening : happenedOf (signs ++ emitted) = happenedOf signs ++ happened :=
      List.filterMap_append.trans (congrArg _ happens)
    refine ⟨?_, settled.client, ⟨m, ?_, ?_⟩, fun e member => ?_, ?_⟩
    · rw [told, happening]
      exact .next kept.loop trivial (same ▸ step)
    · rw [told, takenAppend, taken, spoken]
    · rw [arrivedAppend]
      exact settled.place
    · rw [told] at member
      rcases List.mem_append.mp member with before | now
      · exact failsLater settled.finished (kept.lost e before)
      · exact fails e (List.mem_singleton.mp now).symm
    · have split : writtenOf (signs ++ emitted) = writtenOf signs ++ base.writes x codec fault happened :=
        List.filterMap_append.trans (congrArg _ wrote)
      rw [split, happening, sentOf, List.filterMap_append, fitting, List.filter_append]
      exact List.rel_append kept.written (writesRead lossless settled.client fault happened)

theorem blockedInside {r : Reading} {taken : Bytes} (reading : s.receiver.reading = some r)
    (begun : Reader.Resumes (asyncReadFrame x key) taken r.program) (blocked : s.receiver.blocked = true) :
    Truncated x (taken ++ s.receiver.unread) := by
  rw [← asyncIncomplete key, Reader.resumedRun begun]
  simp only [Receiver.blocked, reading, decide_eq_true_eq] at blocked
  cases program : r.program with
  | exactly count next =>
    rw [program] at blocked
    exact congrArg Prod.fst (Reader.runShort blocked)
  | done value | fail e =>
    rw [program] at blocked
    exact absurd blocked (Nat.not_lt_zero _)

/- The loop runs over the first of the envelopes and, while `recv` waits, over all whose
frames have come. The kernel reads what it sends, but for what no frame can carry. -/
structure Serves (x : Externals) (codec : Codec) (key : Option Bytes) (envelopes : List Envelope) (frames : List Bytes)
    (occasions : List Occasion) (signs : List Sign) (s : Drive) : Prop where
  loop : Runs Loop.machine Always .start (turnsOf signs) (happenedOf signs) s.loop
  taken : ∃ n, takenOf (turnsOf signs) = envelopes.take n ∧
    (waits s.loop.control = true → ∃ begun, arrivedOf occasions = (frames.take n).flatten ++ begun ∧
      (s.receiver.blocked = true → Truncated x begun))
  lost : ∀ e, .received (.error e) ∈ turnsOf signs → Fails s e
  written : List.Forall₂ (ReadsAs x codec key) (fitting codec (sentOf (happenedOf signs))) (writtenOf signs)

theorem keptServes (kept : Kept x codec secret key pluginId envelopes frames occasions signs s) :
    Serves x codec key envelopes frames occasions signs s := by
  obtain ⟨n, taken, place⟩ := kept.place
  refine ⟨kept.loop, ⟨n, taken, fun waiting => ?_⟩, kept.lost, kept.written⟩
  cases place with
  | idle _ away _ => exact absurd (away.symm.trans waiting) Bool.false_ne_true
  | reading reading _ begun _ unread => exact ⟨_, unread, blockedInside reading begun⟩
  | failed _ gone =>
    obtain ⟨got, here⟩ := waitsHolds waiting
    rw [here] at gone
    cases gone

end Run

def sampleAsk : Envelope := ⟨some (.actionRequest sampleRequest)⟩

def sampleReply : Envelope := ⟨some (.actionResponse ⟨sampleRequest.actionId, .ok, [9], []⟩)⟩

def sampleCodec : Codec where
  serialize envelope := if envelope = sampleAsk then [0] else if envelope = Plugin.samplePing then [1] else [2]
  parse raw := .ok (if raw = [0] then sampleAsk else if raw = [1] then Plugin.samplePing else ⟨none⟩)

def posted (envelope : Envelope) : Bytes :=
  (packFrame sampleExternals (lit "echo") (sampleCodec.serialize envelope) 0 (some sampleKey) true).toOption.getD []

theorem samplePosted : List.Forall₂ (Posted sampleExternals sampleCodec (some sampleKey)) [sampleAsk, Plugin.samplePing]
    [posted sampleAsk, posted Plugin.samplePing] :=
  .cons ⟨⟨lit "echo", true, by decide +kernel⟩, by decide +kernel⟩
    (.cons ⟨⟨lit "echo", true, by decide +kernel⟩, by decide +kernel⟩ .nil)

def sampleOccasions : List Occasion :=
  [.iterates 0, .arrives (posted sampleAsk), .resumes 1 1, .resumes 2 2, .resumes 3 3, .resumes 4 4, .wakes,
    .turns (.goOn .accepted 5) none, .turns .drain none, .turns (.complete 0 (.ok [sampleReply])) none,
    .iterates 6, .turns (.put 0) none, .turns .got none, .wakes, .turns (.goOn .accepted 7) none,
    .iterates 8, .arrives ((posted Plugin.samplePing).take 10), .resumes 9 9, .arrives ((posted Plugin.samplePing).drop 10),
    .resumes 10 10, .resumes 11 11, .resumes 12 12, .wakes, .turns (.goOn .accepted 13) none, .turns .drain none,
    .finishes, .iterates 14, .ends, .wakes, .turns (.goOn .accepted 15) none, .turns .drain none]

def sampleDrive : Option (Drive × List Sign) :=
  ((drive sampleExternals sampleCodec).restrict Drive.Unbroken).run (.start (wired none none (some sampleKey)) 0) sampleOccasions

end Vynkor.ConcurrentOverWire
