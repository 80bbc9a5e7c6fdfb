import Vynkor.FrameRoundTrip
import Vynkor.Client

/-! Receiving while receives are cancelled. `recv_timeout` and the concurrent loop
cancel an outstanding `recv`, which then waits in some `readexactly` of
`async_read_frame`; `recv` adds no wait of its own to `recv_frame`. -/
namespace Vynkor
open Octets (Bytes)
open Text Framing Reassembly ExactReader Labelled

/- `started`: the first byte is read, so the frame timeout runs. -/
structure Reading where
  prunedAt : Time
  started : Bool
  program : Reader UInt8 Error (Nat × Bytes)

/- `unread` is the buffer of the `StreamReader`, `clock` the last clock reading. A
cancelled `recv` takes the locals of its coroutine with it and leaves the buffer. -/
structure Receiver where
  client : VynkorClient
  clock : Time
  unread : Bytes
  reading : Option Reading

/- In `resume`, `again` is the clock if the loop goes round. -/
inductive Moment where
  | arrive (data : Bytes)
  | call (now : Time)
  | resume (now again : Time)
  | cancel
  | frameTimeout
  deriving DecidableEq, Repr

inductive Received where
  | frame (clock : Arrival) (flags : Nat) (payload : Bytes) (outcome : Except Error (Option (Nat × Bytes)))
  | failed (error : Error)

namespace Received

def read : Received → Option (Arrival × Nat × Bytes)
  | frame clock flags payload _ => some (clock, flags, payload)
  | failed _ => none

def outcome : Received → Option (Except Error (Option (Nat × Bytes)))
  | frame _ _ _ outcome => some outcome
  | failed _ => none

end Received

def Moment.data : Moment → Bytes
  | arrive data => data
  | _ => []

def arrivedBytes (moments : List Moment) : Bytes := (moments.map Moment.data).flatten

namespace Receiver

def start (c : VynkorClient) (clock : Time) : Receiver := ⟨c, clock, [], none⟩

def blocked (s : Receiver) : Bool :=
  match s.reading with
  | none => false
  | some r => decide (s.unread.length < r.program.wanted)

section Step
variable (x : Externals)

def turn (s : Receiver) (now : Time) : Receiver :=
  { s with
    client := s.client.prune now
    clock := now
    reading := some ⟨now, false, asyncReadFrame x s.client.sessionKey⟩ }

def consume (s : Receiver) (count : Nat) (now : Time) : Receiver :=
  { s with clock := now, unread := s.unread.drop count }

def take (s : Receiver) (now : Time) (flags : Nat) (payload : Bytes) :
    Except Error (Option (Nat × Bytes)) × Receiver :=
  let (outcome, c) := s.client.acceptFrame now flags payload
  (outcome, { s with client := c, clock := now, reading := none })

def finish (s : Receiver) (clock : Arrival) (again : Time) (flags : Nat) (payload : Bytes) :
    Receiver × List Received :=
  match s.take clock.arrivedAt flags payload with
  | (.ok none, s) => (s.turn x again, [.frame clock flags payload (.ok none)])
  | (outcome, s) => (s, [.frame clock flags payload outcome])

def resume (s : Receiver) (now again : Time) : Option (Receiver × List Received) :=
  match s.reading with
  | some ⟨prunedAt, _, .exactly count next⟩ =>
    if count ≤ s.unread.length ∧ s.clock ≤ now ∧ now ≤ again then
      let program := next (s.unread.take count)
      let s := s.consume count now
      match program with
      | .done (flags, payload) => some (s.finish x ⟨prunedAt, now⟩ again flags payload)
      | .fail e => some ({ s with reading := none }, [.failed e])
      | program => some ({ s with reading := some ⟨prunedAt, true, program⟩ }, [])
    else none
  | _ => none

def step (s : Receiver) : Moment → Option (Receiver × List Received)
  | .arrive data => some ({ s with unread := s.unread ++ data }, [])
  | .call now =>
    if s.reading.isNone ∧ s.client.transport = .uds ∧ s.client.streams = true ∧ s.clock ≤ now then
      some (s.turn x now, [])
    else none
  | .resume now again => s.resume x now again
  | .cancel => if s.reading.isSome then some ({ s with reading := none }, []) else none
  | .frameTimeout =>
    match s.reading with
    | some ⟨_, true, _⟩ => some ({ s with reading := none }, [.failed .frameReadTimeout])
    | _ => none

def machine : Machine Receiver Moment Received := ⟨step x⟩

end Step

def Undisturbed (s : Receiver) : Moment → Prop
  | .cancel => ∀ r, s.reading = some r → r.started = false
  | .frameTimeout => False
  | _ => True

def Timely (_ : Receiver) (moment : Moment) : Prop := moment ≠ .frameTimeout

end Receiver

def acceptAll (c : VynkorClient) :
    List (Arrival × Nat × Bytes) → List (Except Error (Option (Nat × Bytes))) × VynkorClient
  | [] => ([], c)
  | (clock, flags, payload) :: later =>
    let (outcome, c) := (c.prune clock.prunedAt).acceptFrame clock.arrivedAt flags payload
    let (outcomes, c) := acceptAll c later
    (outcome :: outcomes, c)

section Accepting
variable {x : Externals} {c : VynkorClient}

theorem acceptKeepsFields (now : Time) (flags : Nat) (payload : Bytes) :
    ∃ streams, (c.acceptFrame now flags payload).2 = { c with reassembly := streams } := by
  unfold VynkorClient.acceptFrame
  split
  · exact ⟨_, rfl⟩
  · exact ⟨c.reassembly, rfl⟩

theorem acceptAllKeepsFields (reads : List (Arrival × Nat × Bytes)) :
    ∃ streams, (acceptAll c reads).2 = { c with reassembly := streams } := by
  induction reads generalizing c with
  | nil => exact ⟨c.reassembly, rfl⟩
  | cons first later ih =>
    obtain ⟨clock, flags, payload⟩ := first
    obtain ⟨one, kept⟩ := acceptKeepsFields (c := c.prune clock.prunedAt) clock.arrivedAt flags payload
    obtain ⟨all, rest⟩ := ih (c := ((c.prune clock.prunedAt).acceptFrame clock.arrivedAt flags payload).2)
    rw [kept] at rest
    exact ⟨all, by simp only [acceptAll, kept, rest]; rfl⟩

theorem acceptAllSnoc (reads : List (Arrival × Nat × Bytes)) (clock : Arrival) (flags : Nat) (payload : Bytes) :
    acceptAll c (reads ++ [(clock, flags, payload)]) =
      ((acceptAll c reads).1 ++
        [(((acceptAll c reads).2.prune clock.prunedAt).acceptFrame clock.arrivedAt flags payload).1],
       (((acceptAll c reads).2.prune clock.prunedAt).acceptFrame clock.arrivedAt flags payload).2) := by
  induction reads generalizing c with
  | nil => rfl
  | cons first later ih => simp only [List.cons_append, acceptAll, ih]

theorem turnsAccept (connected : c.transport = .uds ∧ c.streams = true) {frames : List Frame}
    {reads : List (Arrival × Nat × Bytes)} {left : List (Nat × Bytes)}
    (valid : List.Forall₂ (fun f value => f.deliver x c.sessionKey = .ok value) frames (reads.map Prod.snd ++ left)) :
    (recvTurns x c (reads.map Prod.fst) ⟨(frames.map Frame.bytes).flatten, []⟩).1 =
      (acceptAll c reads).1.map (Except.mapError .raised) := by
  induction reads generalizing c frames with
  | nil => rfl
  | cons first later ih =>
    obtain ⟨clock, flags, payload⟩ := first
    cases valid with
    | @cons f _ frames _ delivers valid =>
      obtain ⟨streams, kept⟩ := acceptKeepsFields (c := c.prune clock.prunedAt) clock.arrivedAt flags payload
      have rest := ih (c := ((c.prune clock.prunedAt).acceptFrame clock.arrivedAt flags payload).2)
        (by rw [kept]; exact connected) (by rw [kept]; exact valid)
      have read : (c.prune clock.prunedAt).nextFrame x ⟨((f :: frames).map Frame.bytes).flatten, []⟩ =
          (.ok (flags, payload), ⟨(frames.map Frame.bytes).flatten, []⟩) := by
        have whole := asyncReadsFrame delivers (frames.map Frame.bytes).flatten
        simp only [VynkorClient.nextFrame, VynkorClient.prune, connected.1, connected.2, if_true, List.map_cons,
          List.flatten_cons, whole]
      have turned : c.recvTurn x clock ⟨((f :: frames).map Frame.bytes).flatten, []⟩ =
          (((c.prune clock.prunedAt).acceptFrame clock.arrivedAt flags payload).1.mapError .raised,
            ((c.prune clock.prunedAt).acceptFrame clock.arrivedAt flags payload).2,
            ⟨(frames.map Frame.bytes).flatten, []⟩) := by
        rw [VynkorClient.recvTurn, read]
      simp only [List.map_cons] at turned
      simp only [List.map_cons, recvTurns, turned, rest, acceptAll]

end Accepting

structure Position (x : Externals) (sessionKey : Option Bytes) (s : Receiver) (future : Bytes)
    (frames : List Frame) (left : List (Nat × Bytes)) (taken : Bytes) : Prop where
  valid : List.Forall₂ (fun f value => f.deliver x sessionKey = .ok value) frames left
  stream : taken ++ (s.unread ++ future) = (frames.map Frame.bytes).flatten
  idle : s.reading = none → taken = []
  resumes : ∀ r, s.reading = some r → Reader.Resumes (asyncReadFrame x sessionKey) taken r.program
  fresh : ∀ r, s.reading = some r → r.started = false → r.program = asyncReadFrame x sessionKey ∧ taken = []
  begun : ∀ r, s.reading = some r → r.started = true → taken ≠ []

/- The client is where the uninterrupted receiver would be, up to the prunes of
calls that were cancelled. -/
structure Accounted (c : VynkorClient) (s : Receiver) (events : List Received) : Prop where
  outcomes : events.filterMap Received.outcome = (acceptAll c (events.filterMap Received.read)).1
  unharmed : ∀ e, Received.failed e ∉ events
  client : s.client = (acceptAll c (events.filterMap Received.read)).2 ∨
    ∃ t ≤ s.clock, s.client = (acceptAll c (events.filterMap Received.read)).2.prune t
  pruned : ∀ r, s.reading = some r → r.prunedAt ≤ s.clock ∧
    s.client = (acceptAll c (events.filterMap Received.read)).2.prune r.prunedAt

section Keeping
variable {x : Externals} {c : VynkorClient} {s t : Receiver} {sessionKey : Option Bytes}
  {future taken : Bytes} {frames : List Frame} {left : List (Nat × Bytes)} {events : List Received}

theorem accountedKey (ok : Accounted c s events) : s.client.sessionKey = c.sessionKey := by
  obtain ⟨streams, kept⟩ := acceptAllKeepsFields (c := c) (events.filterMap Received.read)
  rcases ok.client with same | ⟨t, -, same⟩
  · rw [same, kept]
  · rw [same, kept]; rfl

theorem pruneTwice {earlier later : Time} (order : earlier ≤ later) (c : VynkorClient) :
    (c.prune earlier).prune later = c.prune later := by
  simp only [VynkorClient.prune, pruneAgain order]

theorem consumeAccounted {now : Time} (ok : Accounted c s events) (order : s.clock ≤ now) (count : Nat) :
    Accounted c (s.consume count now) events where
  outcomes := ok.outcomes
  unharmed := ok.unharmed
  client := ok.client.imp id fun ⟨t, before, same⟩ => ⟨t, le_trans before order, same⟩
  pruned r waiting := ⟨le_trans (ok.pruned r waiting).1 order, (ok.pruned r waiting).2⟩

theorem turnAccounted {now : Time} (ok : Accounted c s events) (order : s.clock ≤ now) :
    Accounted c (s.turn x now) events := by
  have pruned : s.client.prune now = (acceptAll c (events.filterMap Received.read)).2.prune now := by
    rcases ok.client with same | ⟨t, before, same⟩
    · rw [same]
    · rw [same, pruneTwice (le_trans before order)]
  refine ⟨ok.outcomes, ok.unharmed, .inr ⟨now, le_refl now, pruned⟩, fun r waiting => ?_⟩
  cases waiting
  exact ⟨le_refl now, pruned⟩

theorem turnPosition {now : Time} (key : s.client.sessionKey = sessionKey)
    (here : Position x sessionKey s future frames left []) :
    Position x sessionKey (s.turn x now) future frames left [] := by
  have start : asyncReadFrame x s.client.sessionKey = asyncReadFrame x sessionKey := by rw [key]
  refine ⟨here.valid, here.stream, fun none => rfl, fun r waiting => ?_, fun r waiting unstarted => ?_,
    fun r waiting started => ?_⟩
  · cases waiting
    rw [start]
    exact .start
  · cases waiting
    exact ⟨start, rfl⟩
  · cases waiting
    cases started

theorem frameAhead {r : Reading} {count : Nat} {next : Bytes → Reader UInt8 Error (Nat × Bytes)}
    (here : Position x sessionKey s future frames left taken) (waiting : s.reading = some r)
    (pending : r.program = .exactly count next) (enough : count ≤ s.unread.length) : frames ≠ [] := by
  rintro rfl
  have nothing := here.stream
  simp only [List.map_nil, List.flatten_nil, List.append_eq_nil_iff] at nothing
  cases started : r.started with
  | false =>
    have first := (here.fresh r waiting started).1.symm.trans pending
    cases first
    simp [nothing.2.1] at enough
  | true => exact here.begun r waiting started nothing.1

theorem streamOn (here : Position x sessionKey s future frames left taken) (count : Nat) :
    (taken ++ s.unread.take count) ++ (s.unread.drop count ++ future) = (frames.map Frame.bytes).flatten := by
  rw [← here.stream, List.append_assoc, ← List.append_assoc (s.unread.take count), List.take_append_drop]

section Resumed
variable {r : Reading} {count : Nat} {next : Bytes → Reader UInt8 Error (Nat × Bytes)}
  (here : Position x sessionKey s future frames left taken) (waiting : s.reading = some r)
  (pending : r.program = .exactly count next) (enough : count ≤ s.unread.length)
include here waiting pending enough

theorem readOn : Reader.Resumes (asyncReadFrame x sessionKey) (taken ++ s.unread.take count)
    (next (s.unread.take count)) := by
  have before := here.resumes r waiting
  rw [pending] at before
  exact .read _ before (by simp [enough])

theorem readFinishes {value : Nat × Bytes} (finished : next (s.unread.take count) = .done value) :
    ∃ rest later, left = value :: later ∧
      List.Forall₂ (fun f value => f.deliver x sessionKey = .ok value) rest later ∧
      s.unread.drop count ++ future = (rest.map Frame.bytes).flatten := by
  have ahead := frameAhead here waiting pending enough
  have read := readOn here waiting pending enough
  have stream := streamOn here count
  cases here.valid with
  | nil => contradiction
  | @cons f first rest later delivers valid =>
    rw [finished] at read
    obtain ⟨same, -, behind⟩ := Reader.resumedDone (asyncReadsFrame delivers) stream read
    exact ⟨rest, later, by rw [same], valid, behind⟩

theorem readNeverFails {e : Error} : next (s.unread.take count) ≠ .fail e := by
  intro failed
  have ahead := frameAhead here waiting pending enough
  have read := readOn here waiting pending enough
  have stream := streamOn here count
  cases here.valid with
  | nil => contradiction
  | cons delivers valid =>
    rw [failed] at read
    exact Reader.resumedNotFail (asyncReadsFrame delivers) stream read

theorem readGoesOn (now : Time) :
    Position x sessionKey
      { s.consume count now with reading := some ⟨r.prunedAt, true, next (s.unread.take count)⟩ }
      future frames left (taken ++ s.unread.take count) := by
  refine ⟨here.valid, streamOn here count, nofun, fun r' again => ?_,
    fun r' again unstarted => ?_, fun r' again _ => ?_⟩
  · cases again
    exact readOn here waiting pending enough
  · cases again
    cases unstarted
  · cases started : r.started with
    | false =>
      have first := (here.fresh r waiting started).1.symm.trans pending
      cases first
      have one : (s.unread.take 1).length = 1 := by simp [enough]
      intro nothing
      simp [(List.append_eq_nil_iff.mp nothing).2] at one
    | true =>
      intro nothing
      exact here.begun r waiting started (List.append_eq_nil_iff.mp nothing).1

end Resumed

structure Kept (x : Externals) (c : VynkorClient) (values : List (Nat × Bytes)) (future : Bytes)
    (events : List Received) (s : Receiver) : Prop where
  accounted : Accounted c s events
  position : ∃ frames left taken, values = (events.filterMap Received.read).map Prod.snd ++ left ∧
    Position x c.sessionKey s future frames left taken

theorem finishCases {clock : Arrival} {again : Time} {flags : Nat} {payload : Bytes} {emitted : List Received}
    (result : s.finish x clock again flags payload = (t, emitted)) :
    emitted = [.frame clock flags payload (s.take clock.arrivedAt flags payload).1] ∧
    (t = (s.take clock.arrivedAt flags payload).2 ∨ t = (s.take clock.arrivedAt flags payload).2.turn x again) := by
  unfold Receiver.finish at result
  rcases took : s.take clock.arrivedAt flags payload with ⟨(e | (none | frame)), u⟩
  all_goals
    rw [took] at result
    cases result
    simp

theorem takeAccounted {clock : Arrival} {flags : Nat} {payload : Bytes} (ok : Accounted c s events)
    (pruned : s.client = (acceptAll c (events.filterMap Received.read)).2.prune clock.prunedAt) :
    Accounted c (s.take clock.arrivedAt flags payload).2
      (events ++ [.frame clock flags payload (s.take clock.arrivedAt flags payload).1]) := by
  have read (outcome) : (events ++ [Received.frame clock flags payload outcome]).filterMap Received.read =
      events.filterMap Received.read ++ [(clock, flags, payload)] := by
    simp [Received.read]
  refine ⟨?_, fun e member => ?_, .inl ?_, nofun⟩
  · rw [read, acceptAllSnoc, List.filterMap_append, ok.outcomes, ← pruned]
    rfl
  · rcases List.mem_append.mp member with old | new
    · exact ok.unharmed e old
    · simp at new
  · rw [read, acceptAllSnoc, ← pruned]
    rfl

theorem finishKeeps {values later : List (Nat × Bytes)} {clock : Arrival} {again : Time} {flags : Nat} {payload : Bytes}
    {emitted : List Received} (result : s.finish x clock again flags payload = (t, emitted))
    (ok : Accounted c s events) (order : clock.arrivedAt ≤ again)
    (pruned : s.client = (acceptAll c (events.filterMap Received.read)).2.prune clock.prunedAt)
    (cut : values = (events.filterMap Received.read).map Prod.snd ++ (flags, payload) :: later)
    (valid : List.Forall₂ (fun f value => f.deliver x c.sessionKey = .ok value) frames later)
    (stream : s.unread ++ future = (frames.map Frame.bytes).flatten) :
    Kept x c values future (events ++ emitted) t := by
  have accounted : Accounted c (s.take clock.arrivedAt flags payload).2
      (events ++ [.frame clock flags payload (s.take clock.arrivedAt flags payload).1]) := takeAccounted ok pruned
  have position : Position x c.sessionKey (s.take clock.arrivedAt flags payload).2 future frames later [] :=
    ⟨valid, stream, fun _ => rfl, nofun, nofun, nofun⟩
  have shown : values = ((events ++ [Received.frame clock flags payload
      (s.take clock.arrivedAt flags payload).1]).filterMap Received.read).map Prod.snd ++ later := by
    rw [cut]
    simp [Received.read]
  obtain ⟨rfl, rfl | rfl⟩ := finishCases result
  · exact ⟨accounted, frames, later, [], shown, position⟩
  · exact ⟨turnAccounted accounted order, frames, later, [], shown, turnPosition (accountedKey accounted) position⟩

inductive Resumes (x : Externals) (s : Receiver) (now again : Time) : Receiver → List Received → Prop where
  | finished {r count next flags payload t emitted} (waiting : s.reading = some r)
      (pending : r.program = .exactly count next) (enough : count ≤ s.unread.length)
      (order : s.clock ≤ now ∧ now ≤ again) (done : next (s.unread.take count) = .done (flags, payload))
      (result : (s.consume count now).finish x ⟨r.prunedAt, now⟩ again flags payload = (t, emitted)) :
      Resumes x s now again t emitted
  | failed {r count next e} (waiting : s.reading = some r) (pending : r.program = .exactly count next)
      (enough : count ≤ s.unread.length) (raised : next (s.unread.take count) = .fail e) :
      Resumes x s now again { s.consume count now with reading := none } [.failed e]
  | goesOn {r count next} (waiting : s.reading = some r) (pending : r.program = .exactly count next)
      (enough : count ≤ s.unread.length) (order : s.clock ≤ now) :
      Resumes x s now again
        { s.consume count now with reading := some ⟨r.prunedAt, true, next (s.unread.take count)⟩ } []

theorem resumeCases {now again : Time} {emitted : List Received} (move : s.resume x now again = some (t, emitted)) :
    Resumes x s now again t emitted := by
  unfold Receiver.resume at move
  split at move
  · rename_i prunedAt started count next waiting
    split at move
    · rename_i guard
      simp only at move
      split at move
      · rename_i flags payload done
        exact .finished waiting rfl guard.1 guard.2 done (Option.some.inj move)
      · rename_i e raised
        cases move
        exact .failed waiting rfl guard.1 raised
      · cases move
        exact .goesOn waiting rfl guard.1 guard.2.1
    · contradiction
  · contradiction

theorem resumeKeeps {values : List (Nat × Bytes)} {now again : Time} {emitted : List Received}
    (ok : Kept x c values future events s) (r : Resumes x s now again t emitted) :
    Kept x c values future (events ++ emitted) t := by
  obtain ⟨accounted, frames, left, taken, cut, here⟩ := ok
  cases r with
  | @finished r count next flags payload _ _ waiting pending enough order done result =>
    obtain ⟨rest, later, rfl, valid, stream⟩ := readFinishes here waiting pending enough done
    exact finishKeeps result (consumeAccounted accounted order.1 count) order.2 (accounted.pruned r waiting).2 cut valid
      stream
  | failed waiting pending enough raised => exact absurd raised (readNeverFails here waiting pending enough)
  | @goesOn r count next waiting pending enough order =>
    have later := consumeAccounted accounted order count
    rw [List.append_nil]
    refine ⟨⟨later.outcomes, later.unharmed, later.client, fun r' again => ?_⟩, frames, left, _, cut,
      readGoesOn here waiting pending enough now⟩
    cases again
    exact later.pruned r waiting

theorem momentKeeps {values : List (Nat × Bytes)} {moment : Moment} {emitted : List Received}
    (ok : Kept x c values (moment.data ++ future) events s) (meets : Receiver.Undisturbed s moment)
    (move : (Receiver.machine x).step s moment = some (t, emitted)) :
    Kept x c values future (events ++ emitted) t := by
  cases moment with
  | arrive data =>
    obtain ⟨accounted, frames, left, taken, cut, here⟩ := ok
    cases move
    rw [List.append_nil]
    refine ⟨⟨accounted.outcomes, accounted.unharmed, accounted.client, accounted.pruned⟩, frames, left, taken, cut,
      here.valid, ?_, here.idle, here.resumes, here.fresh, here.begun⟩
    rw [← here.stream, Moment.data, List.append_assoc s.unread]
  | call now =>
    obtain ⟨accounted, frames, left, taken, cut, here⟩ := ok
    simp only [Receiver.machine, Receiver.step] at move
    split at move
    · rename_i guard
      cases move
      have idle := here.idle (Option.isNone_iff_eq_none.mp guard.1)
      subst idle
      rw [List.append_nil]
      exact ⟨turnAccounted accounted guard.2.2.2, frames, left, [], cut, turnPosition (accountedKey accounted) here⟩
    · contradiction
  | resume now again => exact resumeKeeps ok (resumeCases move)
  | cancel =>
    obtain ⟨accounted, frames, left, taken, cut, here⟩ := ok
    simp only [Receiver.machine, Receiver.step] at move
    split at move
    · rename_i outstanding
      cases move
      obtain ⟨r, waiting⟩ := Option.isSome_iff_exists.mp outstanding
      obtain ⟨-, nothing⟩ := here.fresh r waiting (meets r waiting)
      rw [List.append_nil]
      exact ⟨⟨accounted.outcomes, accounted.unharmed, accounted.client, nofun⟩, frames, left, taken, cut,
        here.valid, here.stream, fun _ => nothing, nofun, nofun, nofun⟩
    · contradiction
  | frameTimeout => exact meets.elim

end Keeping

structure InOrder (values : List (Nat × Bytes)) (events : List Received) : Prop where
  inOrder : (events.filterMap Received.read).map Prod.snd <+: values
  unharmed : ∀ e, Received.failed e ∉ events

theorem receiverKept (x : Externals) {c : VynkorClient} {clock : Time} {frames : List Frame} {values : List (Nat × Bytes)}
    (valid : List.Forall₂ (fun f value => f.deliver x c.sessionKey = .ok value) frames values)
    {moments : List Moment} {events : List Received} {s : Receiver}
    (run : Runs (Receiver.machine x) Receiver.Undisturbed (.start c clock) moments events s) {future : Bytes}
    (stream : arrivedBytes moments ++ future = (frames.map Frame.bytes).flatten) :
    Kept x c values future events s := by
  let inv (moments : List Moment) (events : List Received) (s : Receiver) : Prop :=
    ∀ future, arrivedBytes moments ++ future = (frames.map Frame.bytes).flatten → Kept x c values future events s
  refine runsTrace inv (fun future stream => ?_) ?_ run future stream
  · refine ⟨⟨rfl, nofun, .inl rfl, nofun⟩, frames, values, [], rfl, valid, stream, fun _ => rfl, nofun, nofun, nofun⟩
  · intro moments events s moment t emitted ih meets move future stream
    refine momentKeeps (ih (moment.data ++ future) ?_) meets move
    rw [← stream]
    simp [arrivedBytes]

theorem blockedAtEnd {x : Externals} {c : VynkorClient} {s : Receiver} {events : List Received}
    {values : List (Nat × Bytes)} (kept : Kept x c values [] events s) (blocked : s.blocked = true) :
    (events.filterMap Received.read).map Prod.snd = values := by
  obtain ⟨accounted, frames, left, taken, cut, here⟩ := kept
  unfold Receiver.blocked at blocked
  split at blocked
  · contradiction
  rename_i r waiting
  have short := of_decide_eq_true blocked
  have resumes := here.resumes r waiting
  have stream := here.stream
  cases here.valid with
  | nil => rw [cut, List.append_nil]
  | cons delivers valid =>
    cases program : r.program with
    | done _ | fail _ => simp [program, Reader.wanted] at short
    | exactly count next =>
      rw [program] at resumes short
      rw [List.append_nil] at stream
      exact absurd stream (Reader.blockedInsideFrame (asyncReadsFrame delivers) short resumes)

/- Receives cancelled between frames only: the frames come in order and unharmed,
each turn ends as in the receiver that nothing cancels, and none is missing once
the stream has arrived and the receiver waits for more. -/
theorem receiveUndisturbed (x : Externals) (c : VynkorClient) (connected : c.transport = .uds ∧ c.streams = true)
    (clock : Time) (frames : List Frame) (values : List (Nat × Bytes))
    (valid : List.Forall₂ (fun f value => f.deliver x c.sessionKey = .ok value) frames values)
    (moments : List Moment) (events : List Received) (s : Receiver)
    (run : Runs (Receiver.machine x) Receiver.Undisturbed (.start c clock) moments events s) (future : Bytes)
    (stream : arrivedBytes moments ++ future = (frames.map Frame.bytes).flatten) :
    InOrder values events ∧
    (events.filterMap Received.outcome).map (Except.mapError .raised) =
      (recvTurns x c ((events.filterMap Received.read).map Prod.fst) ⟨(frames.map Frame.bytes).flatten, []⟩).1 ∧
    (future = [] → s.blocked = true → (events.filterMap Received.read).map Prod.snd = values) := by
  have kept := receiverKept x valid run stream
  obtain ⟨left, cut⟩ : ∃ left, values = (events.filterMap Received.read).map Prod.snd ++ left := by
    obtain ⟨-, frames, left, taken, cut, -⟩ := kept
    exact ⟨left, cut⟩
  refine ⟨⟨⟨left, cut.symm⟩, kept.accounted.unharmed⟩, ?_, fun ended blocked => ?_⟩
  · rw [cut] at valid
    rw [kept.accounted.outcomes, turnsAccept connected valid]
  · subst ended
    exact blockedAtEnd kept blocked

def sampleWire : Frame where
  flags := 1
  target := ascii "kernel" ++ List.replicate 26 0
  body := ascii "ping"
  tag := sampleTag
  flagsFit := by decide
  targetFit := by decide
  bodyFit := by decide
  tagFit := by decide

theorem sampleDelivers : sampleWire.deliver sampleExternals none = .ok (1, ascii "ping") := by decide +kernel

def samplePair : Bytes := ([sampleWire, sampleWire].map Frame.bytes).flatten

def sampleReceive (moments : List Moment) : Option (Receiver × List Received) :=
  (Receiver.machine sampleExternals).run (.start (.connectWithSecret none) 0) moments

def sampleIdle : List Moment := [.call 0, .cancel]
def sampleReads : List Moment :=
  [.arrive (samplePair.take 100), .call 1, .resume 1 1, .resume 1 1, .resume 1 1, .resume 1 1,
    .arrive (samplePair.drop 100), .call 2, .resume 2 2, .resume 2 2, .resume 2 2, .resume 2 2, .call 3]

def sampleTorn : List Moment :=
  [.arrive (samplePair.take 10), .call 0, .resume 0 0, .cancel, .arrive (samplePair.drop 10), .call 1,
    .resume 1 1, .resume 1 1]

theorem sampleValidPair : List.Forall₂ (fun f value => f.deliver sampleExternals none = .ok value)
    [sampleWire, sampleWire] [(1, ascii "ping"), (1, ascii "ping")] :=
  .cons sampleDelivers (.cons sampleDelivers .nil)

theorem sampleReadsOn {s : Receiver} {r : Receiver × List Received}
    (run : (Receiver.machine sampleExternals).run s sampleReads = some r) :
    Runs (Receiver.machine sampleExternals) Receiver.Undisturbed s sampleReads r.2 r.1 := by
  have calm : ∀ m ∈ sampleReads, m ≠ .cancel ∧ m ≠ .frameTimeout := by decide +kernel
  refine runsOfRunWhere _ (fun m member s => ?_) run
  cases m with
  | cancel => exact absurd rfl (calm _ member).1
  | frameTimeout => exact absurd rfl (calm _ member).2
  | arrive _ | call _ | resume _ _ => trivial

def sampleCalled : Receiver := .turn sampleExternals (.start (.connectWithSecret none) 0) 0

theorem sampleCallStep : (Receiver.machine sampleExternals).step (.start (.connectWithSecret none) 0) (.call 0) =
    some (sampleCalled, []) := by
  simp only [Receiver.machine, Receiver.step]
  exact if_pos ⟨rfl, rfl, rfl, le_refl _⟩

theorem receiveUndisturbedSample :
    (sampleReceive (sampleIdle ++ sampleReads)).map (fun r => (r.2.filterMap Received.read).map Prod.snd) =
      some [(1, ascii "ping"), (1, ascii "ping")] := by
  have ran : (sampleReceive (sampleIdle ++ sampleReads)).isSome := by decide +kernel
  obtain ⟨⟨s, events⟩, run⟩ := Option.isSome_iff_exists.mp ran
  have waits : ∀ r ∈ sampleReceive (sampleIdle ++ sampleReads), r.1.blocked = true := by decide +kernel
  have blocked := waits _ run
  obtain ⟨t, first, later, called, onward, rfl⟩ := Machine.runCons.mp run
  cases sampleCallStep.symm.trans called
  obtain ⟨u, second, last, cancelled, rest, rfl⟩ := Machine.runCons.mp onward
  have fresh : Receiver.Undisturbed sampleCalled .cancel := by
    intro r waiting
    cases waiting
    rfl
  have whole := runsAppend (.next (.next .idle trivial called) fresh cancelled) (sampleReadsOn rest)
  rw [run, Option.map_some, Option.some.injEq]
  exact (receiveUndisturbed sampleExternals (.connectWithSecret none) ⟨rfl, rfl⟩ 0 _ _ sampleValidPair _ _ _ whole []
    (by decide +kernel)).2.2 rfl blocked

/- The first byte of the first frame is lost with the cancelled coroutine, and the
next receive takes its second byte for the start of a header. -/
theorem cancelTearsFrame : ¬ ∀ (x : Externals) (c : VynkorClient) (clock : Time) (frames : List Frame)
    (values : List (Nat × Bytes)) (moments : List Moment) (events : List Received) (s : Receiver),
    c.transport = .uds ∧ c.streams = true →
    List.Forall₂ (fun f value => f.deliver x c.sessionKey = .ok value) frames values →
    arrivedBytes moments = (frames.map Frame.bytes).flatten →
    Runs (Receiver.machine x) Receiver.Timely (.start c clock) moments events s → InOrder values events := by
  intro claim
  have ran : (sampleReceive sampleTorn).isSome := by decide +kernel
  have run : sampleReceive sampleTorn = some ((sampleReceive sampleTorn).get ran) := (Option.some_get _).symm
  have torn : ∀ r ∈ sampleReceive sampleTorn, ∃ event ∈ r.2, event.read = none := by decide +kernel
  have intime : ∀ m ∈ sampleTorn, m ≠ .frameTimeout := by decide +kernel
  generalize (sampleReceive sampleTorn).get ran = reached at run
  obtain ⟨event, member, failed⟩ := torn reached run
  have ordered := claim sampleExternals (.connectWithSecret none) 0 _ _ _ _ _ ⟨rfl, rfl⟩ sampleValidPair
    (by decide +kernel) (runsOfRunWhere Receiver.Timely (fun m member s => intime m member) run)
  cases event with
  | frame _ _ _ _ => cases failed
  | failed e => exact ordered.unharmed e member

end Vynkor
