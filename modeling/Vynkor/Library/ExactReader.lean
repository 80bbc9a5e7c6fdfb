import Mathlib.Data.List.Basic

/-! Programs that consume a stream by exact-length reads. A read of `n` items
returns only when `n` items are buffered and removes them only then; a program
abandoned between two reads keeps nothing. Which format is read is a parameter. -/
namespace Vynkor.ExactReader

inductive Reader (β ε α : Type) where
  | done (value : α)
  | fail (error : ε)
  | exactly (count : Nat) (next : List β → Reader β ε α)

/- Why a reader stopped on a finished stream: its own error, or the end of the
stream inside a read. -/
inductive Halt (ε : Type) where
  | raised (error : ε)
  | incomplete
  deriving DecidableEq, Repr

variable {β ε α γ : Type}

namespace Reader

def bind : Reader β ε α → (α → Reader β ε γ) → Reader β ε γ
  | done value, f => f value
  | fail error, _ => fail error
  | exactly count next, f => exactly count (fun chunk => (next chunk).bind f)

instance : Monad (Reader β ε) where
  pure := done
  bind := bind

def wanted : Reader β ε α → Nat
  | exactly count _ => count
  | _ => 0

def readExactly (count : Nat) : Reader β ε (List β) := exactly count done

def ofExcept : Except ε α → Reader β ε α
  | .ok value => done value
  | .error error => fail error

def run : Reader β ε α → List β → Except (Halt ε) α × List β
  | done value, stream => (.ok value, stream)
  | fail error, stream => (.error (.raised error), stream)
  | exactly count next, stream =>
    if count ≤ stream.length then (next (stream.take count)).run (stream.drop count)
    else (.error .incomplete, [])

theorem runExactly {count : Nat} {next : List β → Reader β ε α} {chunk rest : List β}
    (size : chunk.length = count) : (exactly count next).run (chunk ++ rest) = (next chunk).run rest := by
  have enough : count ≤ (chunk ++ rest).length := by simp [size]
  simp only [run, if_pos enough, List.take_left' size, List.drop_left' size]

theorem runShort {count : Nat} {next : List β → Reader β ε α} {stream : List β}
    (short : stream.length < count) : (exactly count next).run stream = (.error .incomplete, []) := by
  simp only [run, if_neg (Nat.not_le.mpr short)]

theorem runBind (p : Reader β ε α) (f : α → Reader β ε γ) (stream : List β) :
    (p >>= f).run stream =
      match p.run stream with
      | (.ok value, rest) => (f value).run rest
      | (.error halt, rest) => (.error halt, rest) := by
  change (p.bind f).run stream = _
  induction p generalizing stream with
  | done value => rfl
  | fail error => rfl
  | exactly count next ih =>
    by_cases enough : count ≤ stream.length
    · simp only [bind, run, if_pos enough, ih]
    · simp only [bind, run, if_neg enough]

theorem runBindOk {p : Reader β ε α} {f : α → Reader β ε γ} {stream rest : List β} {value : γ} :
    (p >>= f).run stream = (.ok value, rest) ↔
      ∃ got middle, p.run stream = (.ok got, middle) ∧ (f got).run middle = (.ok value, rest) := by
  rw [runBind]
  rcases p.run stream with ⟨halt | got, middle⟩
  · simp
  · simp

theorem runPure (value : α) (stream : List β) :
    (pure value : Reader β ε α).run stream = (.ok value, stream) := rfl

theorem runOfExcept (e : Except ε α) (stream : List β) :
    (ofExcept e).run stream = (e.mapError Halt.raised, stream) := by
  cases e <;> rfl

theorem runOfExceptOk {e : Except ε α} {stream rest : List β} {value : α} :
    (ofExcept e).run stream = (.ok value, rest) ↔ e = .ok value ∧ stream = rest := by
  cases e <;> simp [ofExcept, run]

theorem runReadExactly {count : Nat} {chunk rest : List β} (size : chunk.length = count) :
    (readExactly count : Reader β ε (List β)).run (chunk ++ rest) = (.ok chunk, rest) :=
  runExactly size

theorem runReadExactlyOk {count : Nat} {stream chunk rest : List β} :
    (readExactly count : Reader β ε (List β)).run stream = (.ok chunk, rest) ↔
      stream = chunk ++ rest ∧ chunk.length = count := by
  constructor
  · intro ok
    by_cases enough : count ≤ stream.length
    · simp only [readExactly, run, if_pos enough, Prod.mk.injEq, Except.ok.injEq] at ok
      obtain ⟨rfl, rfl⟩ := ok
      exact ⟨(List.take_append_drop count stream).symm, by simp [enough]⟩
    · simp [readExactly, run, if_neg enough] at ok
  · rintro ⟨rfl, size⟩
    exact runReadExactly size

theorem runSplitRead (first second : Nat) (f : List β → Reader β ε α) (stream : List β) :
    (readExactly first >>= fun a => readExactly second >>= fun b => f (a ++ b)).run stream =
      (readExactly (first + second) >>= f).run stream := by
  by_cases enough : first + second ≤ stream.length
  · obtain ⟨a, b, rest, rfl, ha, hb⟩ : ∃ a b rest, stream = a ++ (b ++ rest) ∧ a.length = first ∧
        b.length = second := by
      refine ⟨stream.take first, (stream.drop first).take second, (stream.drop first).drop second, ?_, ?_, ?_⟩
      · rw [List.take_append_drop, List.take_append_drop]
      · simp; omega
      · simp; omega
    have hab : (a ++ b).length = first + second := by simp [ha, hb]
    simp only [runBind, runReadExactly ha, runReadExactly hb]
    rw [← List.append_assoc, runReadExactly hab]
  · have short : (readExactly (first + second) : Reader β ε (List β)).run stream = (.error .incomplete, []) :=
      runShort (Nat.lt_of_not_le enough)
    simp only [runBind, short]
    by_cases one : first ≤ stream.length
    · have cut : (stream.take first).length = first := by simp [one]
      have left : (stream.drop first).length < second := by simp; omega
      have got : (readExactly first : Reader β ε (List β)).run stream =
          (.ok (stream.take first), stream.drop first) :=
        runReadExactlyOk.mpr ⟨(List.take_append_drop first stream).symm, cut⟩
      rw [got]
      simp only [readExactly, runShort left]
    · simp only [readExactly, runShort (Nat.lt_of_not_le one)]

/- `Resumes p taken r`: started as `p`, the program is now `r` and has removed
exactly `taken` from the stream. -/
inductive Resumes (p : Reader β ε α) : List β → Reader β ε α → Prop where
  | start : Resumes p [] p
  | read {taken count next} (chunk : List β) (before : Resumes p taken (exactly count next))
      (size : chunk.length = count) : Resumes p (taken ++ chunk) (next chunk)

theorem resumedRun {p r : Reader β ε α} {taken : List β} (h : Resumes p taken r) (rest : List β) :
    p.run (taken ++ rest) = r.run rest := by
  induction h generalizing rest with
  | start => rfl
  | read chunk before size ih => rw [List.append_assoc, ih, runExactly size]

/- What follows is about a stream that starts with a `frame` on which the
program succeeds whatever comes after it. -/
section Frames
variable {p r : Reader β ε α} {taken frame : List β} {value : α}

theorem resumedNotFail (law : ∀ rest, p.run (frame ++ rest) = (.ok value, rest))
    {ahead tail : List β} (stream : taken ++ ahead = frame ++ tail) {error : ε}
    (h : Resumes p taken (fail error)) : False := by
  have ran := resumedRun h ahead
  rw [stream, law] at ran
  simp [run] at ran

theorem resumedDone (law : ∀ rest, p.run (frame ++ rest) = (.ok value, rest))
    {ahead tail : List β} (stream : taken ++ ahead = frame ++ tail) {got : α}
    (h : Resumes p taken (done got)) : got = value ∧ taken = frame ∧ ahead = tail := by
  have ran := resumedRun h ahead
  rw [stream, law] at ran
  simp only [run, Prod.mk.injEq, Except.ok.injEq] at ran
  obtain ⟨same, rest⟩ := ran
  subst rest
  exact ⟨same.symm, List.append_cancel_right stream, rfl⟩

theorem blockedInsideFrame (law : ∀ rest, p.run (frame ++ rest) = (.ok value, rest))
    {ahead : List β} {count : Nat} {next : List β → Reader β ε α} (short : ahead.length < count)
    (h : Resumes p taken (exactly count next)) {tail : List β} : taken ++ ahead ≠ frame ++ tail := by
  intro stream
  have ran := resumedRun h ahead
  rw [stream, law, runShort short] at ran
  simp at ran

end Frames

theorem incompleteRead {count : Nat} {stream : List β} :
    ((readExactly count : Reader β ε (List β)).run stream).1 = .error .incomplete ↔ stream.length < count := by
  by_cases enough : count ≤ stream.length
  · simp [readExactly, run, enough]
  · simp [readExactly, run, if_neg enough, Nat.lt_of_not_le enough]

theorem haltBind {p : Reader β ε α} {f : α → Reader β ε γ} {stream : List β} {halt : Halt ε} :
    ((p >>= f).run stream).1 = .error halt ↔
      (p.run stream).1 = .error halt ∨
        ∃ value rest, p.run stream = (.ok value, rest) ∧ ((f value).run rest).1 = .error halt := by
  rw [runBind]
  rcases p.run stream with ⟨other | value, rest⟩
  · simp
  · simp

theorem incompleteExcept {e : Except ε α} {stream : List β} :
    ((ofExcept e : Reader β ε α).run stream).1 ≠ .error .incomplete := by
  cases e <;> simp [ofExcept, run]

theorem raisedExcept {e : Except ε α} {stream : List β} {error : ε} :
    ((ofExcept e : Reader β ε α).run stream).1 = .error (.raised error) ↔ e = .error error := by
  cases e <;> simp [ofExcept, run]

theorem raisedRead {count : Nat} {stream : List β} {error : ε} :
    ((readExactly count : Reader β ε (List β)).run stream).1 ≠ .error (.raised error) := by
  by_cases enough : count ≤ stream.length
  · simp [readExactly, run, enough]
  · simp [readExactly, run, enough]

theorem runExtend {p : Reader β ε α} {stream : List β} (ended : (p.run stream).1 ≠ .error .incomplete)
    (more : List β) : p.run (stream ++ more) = ((p.run stream).1, (p.run stream).2 ++ more) := by
  induction p generalizing stream with
  | done value => rfl
  | fail error => rfl
  | exactly count next ih =>
    by_cases enough : count ≤ stream.length
    · have longer : count ≤ (stream ++ more).length := by simp; omega
      simp only [run, if_pos enough] at ended ⊢
      rw [if_pos longer, List.take_append_of_le_length enough, List.drop_append_of_le_length enough, ih _ ended]
    · simp [run, if_neg enough] at ended

theorem readsOrWaits {p : Reader β ε α} {value : α} {frame unread future rest : List β}
    (law : ∀ rest, p.run (frame ++ rest) = (.ok value, rest)) (ahead : unread ++ future = frame ++ rest) :
    (p.run unread).1 = .error .incomplete ∨ ∃ left, p.run unread = (.ok value, left) ∧ left ++ future = rest := by
  by_cases waits : (p.run unread).1 = .error .incomplete
  · exact .inl waits
  · have whole := runExtend waits future
    rw [ahead, law] at whole
    obtain ⟨same, left⟩ := Prod.mk.inj whole
    exact .inr ⟨(p.run unread).2, Prod.ext same.symm rfl, left.symm⟩

def advance : Reader β ε α → List β → Reader β ε α × List β
  | done value, buffer => (done value, buffer)
  | fail error, buffer => (fail error, buffer)
  | exactly count next, buffer =>
    if count ≤ buffer.length then (next (buffer.take count)).advance (buffer.drop count)
    else (exactly count next, buffer)

def feed (p : Reader β ε α) (buffer : List β) : List (List β) → Reader β ε α × List β
  | [] => p.advance buffer
  | data :: later => (p.advance buffer).1.feed ((p.advance buffer).2 ++ data) later

def finish : Reader β ε α × List β → Except (Halt ε) α × List β
  | (done value, buffer) => (.ok value, buffer)
  | (fail error, buffer) => (.error (.raised error), buffer)
  | (exactly _ _, _) => (.error .incomplete, [])

theorem advanceRun (p : Reader β ε α) (buffer more : List β) :
    (p.advance buffer).1.run ((p.advance buffer).2 ++ more) = p.run (buffer ++ more) := by
  induction p generalizing buffer with
  | done value => rfl
  | fail error => rfl
  | exactly count next ih =>
    by_cases enough : count ≤ buffer.length
    · have longer : count ≤ (buffer ++ more).length := by simp; omega
      simp only [advance, if_pos enough, ih, run, if_pos longer]
      rw [List.take_append_of_le_length enough, List.drop_append_of_le_length enough]
    · simp only [advance, if_neg enough]

theorem advanceFinish (p : Reader β ε α) (buffer : List β) : finish (p.advance buffer) = p.run buffer := by
  induction p generalizing buffer with
  | done value => rfl
  | fail error => rfl
  | exactly count next ih =>
    by_cases enough : count ≤ buffer.length
    · simp only [advance, run, if_pos enough, ih]
    · simp only [advance, run, if_neg enough, finish]

theorem feedRun (p : Reader β ε α) (buffer : List β) (arrivals : List (List β)) :
    finish (p.feed buffer arrivals) = p.run (buffer ++ arrivals.flatten) := by
  induction arrivals generalizing p buffer with
  | nil => rw [feed, advanceFinish, List.flatten_nil, List.append_nil]
  | cons data later ih => rw [feed, ih, List.append_assoc, advanceRun, List.flatten_cons]

def readUpTo (count : Nat) : StateT (List β) (Except ε) (List β) :=
  fun stream => .ok (stream.take count, stream.drop count)

def readOrRaise (count : Nat) (truncated : ε) : StateT (List β) (Except ε) (List β) := do
  let chunk ← readUpTo count
  if chunk.length < count then throw truncated else return chunk

def Follows (truncation : ε → Prop) (m : StateT (List β) (Except ε) α) (p : Reader β ε α) : Prop :=
  ∀ stream, match p.run stream with
    | (.ok value, rest) => m stream = .ok (value, rest)
    | (.error (.raised error), _) => m stream = .error error
    | (.error .incomplete, _) => ∃ error, truncation error ∧ m stream = .error error

section Follows
variable {truncation : ε → Prop}

theorem followsPure (value : α) :
    Follows truncation (pure value : StateT (List β) (Except ε) α) (pure value) := fun _ => rfl

theorem followsExcept (e : Except ε α) :
    Follows truncation (liftM e : StateT (List β) (Except ε) α) (ofExcept e) := by
  intro stream
  cases e <;> rfl

theorem followsBind {m : StateT (List β) (Except ε) α} {p : Reader β ε α}
    {k : α → StateT (List β) (Except ε) γ} {f : α → Reader β ε γ}
    (first : Follows truncation m p) (second : ∀ value, Follows truncation (k value) (f value)) :
    Follows truncation (m >>= k) (p >>= f) := by
  intro stream
  have here := first stream
  have run (r) (h : m stream = r) : (m >>= k) stream = r >>= fun got => k got.1 got.2 := by
    rw [← h]; rfl
  rw [runBind]
  rcases hp : p.run stream with ⟨halt | value, rest⟩
  · cases halt with
    | raised error =>
      simp only [hp] at here ⊢
      rw [run _ here]; rfl
    | incomplete =>
      simp only [hp] at here ⊢
      obtain ⟨error, short, fails⟩ := here
      exact ⟨error, short, by rw [run _ fails]; rfl⟩
  · simp only [hp] at here ⊢
    have whole : (m >>= k) stream = k value rest := by rw [run _ here]; rfl
    have later := second value rest
    rw [whole]
    exact later

theorem followsRead {error : ε} (short : truncation error) (count : Nat) :
    Follows truncation (readOrRaise count error : StateT (List β) (Except ε) (List β)) (readExactly count) := by
  intro stream
  by_cases enough : count ≤ stream.length
  · have got : (readExactly count : Reader β ε (List β)).run stream =
        (.ok (stream.take count), stream.drop count) :=
      runReadExactlyOk.mpr ⟨(List.take_append_drop count stream).symm, by simp [enough]⟩
    have long : ¬ (stream.take count).length < count := by simp [enough]
    simp only [got]
    change (if (stream.take count).length < count then throw error else pure (stream.take count) :
      StateT (List β) (Except ε) (List β)) (stream.drop count) = _
    rw [if_neg long]
    rfl
  · have cut : (stream.take count).length < count := by simp; omega
    simp only [readExactly, runShort (Nat.lt_of_not_le enough)]
    refine ⟨error, short, ?_⟩
    change (if (stream.take count).length < count then throw error else pure (stream.take count) :
      StateT (List β) (Except ε) (List β)) (stream.drop count) = _
    rw [if_pos cut]
    rfl

theorem followsSplit {m : StateT (List β) (Except ε) α} {first second : Nat} {f : List β → Reader β ε α}
    (h : Follows truncation m (readExactly (first + second) >>= f)) :
    Follows truncation m (readExactly first >>= fun a => readExactly second >>= fun b => f (a ++ b)) := by
  intro stream
  rw [runSplitRead]
  exact h stream

end Follows
end Reader
end Vynkor.ExactReader
