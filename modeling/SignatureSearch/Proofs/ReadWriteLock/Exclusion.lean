/-
# `Proofs.ReadWriteLock.Exclusion` — the counters of a lock tell where the threads are

However the moves of threads are mixed, the state of a lock says how many of
them are where (`Balanced`):

    readers           the threads inside a read section
    writerActive      whether a thread is inside a write section
    writersWaiting    the threads that wait to write

and it never says that readers and a writer are inside together.  One move of
one thread keeps this (`Balanced.step`): a thread that arrives counts itself
among those that wait, then it tests the lock as one that wakes does, so that
only a test, a wait that is given up and a release have to be looked at.  A
release is then never without an acquisition.
-/
import Mathlib.Data.Set.Card
import SignatureSearch.ReadWriteLock.Threads

namespace SignatureSearch.ReadWriteLock

def Place.IsInside (mode : Mode) (p : Place) : Prop :=
  p = .inside mode

def Place.IsWaiting (mode : Mode) (p : Place) : Prop :=
  ∃ notified, p = .waits mode notified

/-- How often the lock is held in a mode. -/
def held (lock : ReadWriteLock) : Mode → Nat
  | .read => lock.readers
  | .write => if lock.writerActive then 1 else 0

namespace Threads

variable {τ : Type} [DecidableEq τ]

/-! ## Counting threads -/

/-- How many threads are at a place of some kind. -/
noncomputable def count (P : Place → Prop) (place : τ → Place) : ℕ∞ :=
  {t | P (place t)}.encard

theorem put_self (place : τ → Place) (t : τ) (p : Place) : put place t p t = p :=
  if_pos rfl

theorem put_of_ne (place : τ → Place) {t t' : τ} (h : t' ≠ t) (p : Place) :
    put place t p t' = place t' :=
  if_neg h

open Classical in
theorem count_put (P : Place → Prop) (place : τ → Place) (t : τ) (p : Place) :
    count P (put place t p) + (if P (place t) then 1 else 0) =
      count P place + if P p then 1 else 0 := by
  have hcount : ∀ place' : τ → Place, (∀ t' ≠ t, place' t' = place t') →
      count P place' = {t' | t' ≠ t ∧ P (place t')}.encard + if P (place' t) then 1 else 0 := by
    intro place' hsame
    by_cases hP : P (place' t)
    · have hset : {t' | P (place' t')} = insert t {t' | t' ≠ t ∧ P (place t')} := by
        ext t'
        by_cases ht : t' = t
        · simp [ht, hP]
        · simp [ht, hsame t' ht]
      rw [count, hset, Set.encard_insert_of_notMem (fun h => h.1 rfl), if_pos hP]
    · have hset : {t' | P (place' t')} = {t' | t' ≠ t ∧ P (place t')} := by
        ext t'
        by_cases ht : t' = t
        · simp [ht, hP]
        · simp [ht, hsame t' ht]
      rw [count, hset, if_neg hP, add_zero]
  rw [hcount _ fun t' ht => put_of_ne place ht p, hcount place fun _ _ => rfl, put_self,
    add_right_comm]

theorem count_put_enter {P : Place → Prop} {place : τ → Place} {t : τ} {p : Place}
    (h : ¬ P (place t)) (hp : P p) : count P (put place t p) = count P place + 1 := by
  simpa [h, hp] using count_put P place t p

theorem count_put_leave {P : Place → Prop} {place : τ → Place} {t : τ} {p : Place} {n : Nat}
    (h : P (place t)) (hp : ¬ P p) (hn : count P place = n) :
    0 < n ∧ count P (put place t p) = (n - 1 : Nat) := by
  have hput := count_put P place t p
  rw [if_pos h, if_neg hp, add_zero, hn] at hput
  cases n with
  | zero => simp at hput
  | succ n =>
      rw [Nat.cast_succ] at hput
      exact ⟨Nat.succ_pos n, WithTop.add_right_cancel ENat.one_ne_top hput⟩

theorem count_put_same {P : Place → Prop} {place : τ → Place} {t : τ} {p : Place}
    (h : P (place t) ↔ P p) : count P (put place t p) = count P place := by
  have hput := count_put P place t p
  by_cases hp : P p
  · rw [if_pos (h.mpr hp), if_pos hp] at hput
    exact WithTop.add_right_cancel ENat.one_ne_top hput
  · rwa [if_neg (mt h.mp hp), if_neg hp, add_zero, add_zero] at hput

omit [DecidableEq τ] in
theorem count_notify {P : Place → Prop} (hP : ∀ p : Place, P p.notify ↔ P p) (place : τ → Place) :
    count P (fun t => (place t).notify) = count P place := by
  simp only [count, hP]

/-! ## What a state of the lock says -/

/-- The lock says how many threads are where. -/
structure Balanced (s : Threads τ) : Prop where
  inside : ∀ mode, count (Place.IsInside mode) s.place = s.lock.held mode
  waiting : count (Place.IsWaiting .write) s.place = s.lock.writersWaiting
  exclusive : s.lock.writerActive = true → s.lock.readers = 0
  sound : ∀ t e, s.place t ≠ .failed e

theorem sound_put {place : τ → Place} {t : τ} {p : Place} (h : ∀ t e, place t ≠ .failed e)
    (hp : ∀ e, p ≠ .failed e) (t' : τ) (e : Unbalanced) : put place t p t' ≠ .failed e := by
  by_cases ht : t' = t
  · rw [ht, put_self]
    exact hp e
  · rw [put_of_ne _ ht]
    exact h t' e

omit [DecidableEq τ] in
theorem balanced_start : Balanced ({} : Threads τ) where
  inside mode := by cases mode <;> simp [count, Place.IsInside, held]
  waiting := by simp [count, Place.IsWaiting]
  exclusive h := absurd h Bool.false_ne_true
  sound t e := by simp

theorem Balanced.ask {s : Threads τ} (h : s.Balanced) {t : τ} (ht : s.place t = .outside)
    (mode : Mode) : (s.ask t mode).Balanced where
  inside mode' := by
    rw [Threads.ask, count_put_same (by simp [ht, Place.IsInside]), h.inside]
    cases mode <;> rfl
  waiting := by
    cases mode with
    | read =>
        rw [Threads.ask, count_put_same (by simp [ht, Place.IsWaiting]), h.waiting]
        rfl
    | write =>
        rw [Threads.ask, count_put_enter (by simp [ht, Place.IsWaiting])
          (by simp [Place.IsWaiting]), h.waiting]
        rfl
  exclusive := by
    cases mode <;> exact h.exclusive
  sound := sound_put h.sound (by simp)

theorem held_enter {lock : ReadWriteLock} {mode : Mode} (h : lock.isOpen mode = true)
    (mode' : Mode) :
    (lock.enter mode).held mode' = lock.held mode' + if mode' = mode then 1 else 0 := by
  cases mode <;> cases mode' <;> simp_all [held, enter, isOpen]

theorem Balanced.attempt {s : Threads τ} (h : s.Balanced) {t : τ} {mode : Mode} {notified : Bool}
    (ht : s.place t = .waits mode notified) : (s.attempt t mode).Balanced := by
  by_cases hopen : s.lock.isOpen mode = true
  · rw [Threads.attempt, if_pos hopen]
    refine ⟨fun mode' => ?_, ?_, ?_, sound_put h.sound (by simp)⟩
    · rw [held_enter hopen]
      by_cases hmode : mode' = mode
      · rw [if_pos hmode, count_put_enter (by simp [ht, Place.IsInside])
          (by simp [Place.IsInside, hmode]), h.inside]
        rfl
      · rw [if_neg hmode, count_put_same (by simp [ht, Place.IsInside, Ne.symm hmode]), h.inside]
        rfl
    · cases mode with
      | read =>
          rw [count_put_same (by simp [ht, Place.IsWaiting]), h.waiting]
          rfl
      | write => exact (count_put_leave ⟨notified, ht⟩ (by simp [Place.IsWaiting]) h.waiting).2
    · cases mode <;> simp_all [isOpen, enter]
  · rw [Threads.attempt, if_neg hopen]
    refine ⟨fun mode' => ?_, ?_, h.exclusive, sound_put h.sound (by simp)⟩
    · rw [count_put_same (by simp [ht, Place.IsInside]), h.inside]
    · rw [count_put_same (by simp [ht, Place.IsWaiting]), h.waiting]

theorem Balanced.withdraw {s : Threads τ} (h : s.Balanced) {t : τ} {mode : Mode} {notified : Bool}
    (ht : s.place t = .waits mode notified) :
    Balanced ⟨s.lock.withdraw mode, put s.place t .outside⟩ := by
  refine ⟨fun mode' => ?_, ?_, ?_, sound_put h.sound (by simp)⟩
  · rw [count_put_same (by simp [ht, Place.IsInside]), h.inside]
    cases mode <;> rfl
  · cases mode with
    | read =>
        rw [count_put_same (by simp [ht, Place.IsWaiting]), h.waiting]
        rfl
    | write => exact (count_put_leave ⟨notified, ht⟩ (by simp [Place.IsWaiting]) h.waiting).2
  · cases mode <;> exact h.exclusive

/-- A thread inside a section is counted, so that it has something to release. -/
theorem Balanced.held_pos {s : Threads τ} (h : s.Balanced) {t : τ} {mode : Mode}
    (ht : s.place t = .inside mode) : 0 < s.lock.held mode :=
  (count_put_leave (P := Place.IsInside mode) (p := .outside) ht nofun (h.inside mode)).1

/-- What one release does to a lock: it is held once less, and those that wait are notified unless
a reader is left. -/
theorem release_eq_ok {lock : ReadWriteLock} {mode : Mode} (h : 0 < lock.held mode) :
    ∃ after notifies, lock.release mode = .ok (after, notifies) ∧
      (∀ mode', after.held mode' = lock.held mode' - if mode' = mode then 1 else 0) ∧
      after.writersWaiting = lock.writersWaiting ∧ after.readers ≤ lock.readers ∧
      (after.writerActive = true → lock.writerActive = true) ∧
      (notifies = false → 0 < after.readers) := by
  cases mode with
  | read =>
      have hreaders : lock.readers ≠ 0 := Nat.pos_iff_ne_zero.mp h
      refine ⟨{ lock with readers := lock.readers - 1 }, lock.readers == 1, ?_, ?_, rfl, ?_, id, ?_⟩
      · rw [release, if_neg hreaders]
      · intro mode'
        cases mode' <;> rfl
      · exact Nat.sub_le _ _
      · intro hmore
        have hone : lock.readers ≠ 1 := by simpa using hmore
        show 0 < lock.readers - 1
        omega
  | write =>
      have hactive : lock.writerActive = true := by
        by_contra hno
        simp [held, hno] at h
      refine ⟨{ lock with writerActive := false }, true, ?_, ?_, rfl, Nat.le_refl _, ?_, by simp⟩
      · rw [release, if_pos hactive]
      · intro mode'
        cases mode' with
        | read => rfl
        | write => simp [held, hactive]
      · exact fun hafter => absurd hafter Bool.false_ne_true

theorem Balanced.leave {s : Threads τ} (h : s.Balanced) {t : τ} {mode : Mode}
    (ht : s.place t = .inside mode) : (s.leave t mode).Balanced := by
  obtain ⟨after, notifies, hrelease, hheld, hwaiting, hreaders, hactive, _⟩ :=
    release_eq_ok (h.held_pos ht)
  have hkept : ∀ place : τ → Place, (∀ P : Place → Prop, (∀ p, P p.notify ↔ P p) →
      count P place = count P s.place) → place t = .inside mode → (∀ t e, place t ≠ .failed e) →
      Balanced ⟨after, put place t .outside⟩ := by
    intro place hcount hplace hsound
    refine ⟨fun mode' => ?_, ?_, ?_, sound_put hsound (by simp)⟩
    · have hinside : count (Place.IsInside mode') place = s.lock.held mode' := by
        rw [hcount _ (by intro p; cases p <;> simp [Place.notify, Place.IsInside]), h.inside]
      by_cases hmode : mode' = mode
      · subst hmode
        rw [hheld, if_pos rfl]
        exact (count_put_leave (P := Place.IsInside mode') (p := .outside) hplace nofun hinside).2
      · rw [count_put_same (by simp [hplace, Place.IsInside, Ne.symm hmode]), hinside, hheld,
          if_neg hmode]
        rfl
    · rw [count_put_same (by simp [hplace, Place.IsWaiting]), hwaiting, ← h.waiting]
      exact hcount _ (by intro p; cases p <;> simp [Place.notify, Place.IsWaiting])
    · intro hafter
      exact Nat.le_zero.mp (h.exclusive (hactive hafter) ▸ hreaders)
  rw [Threads.leave, hrelease]
  cases notifies with
  | false => exact hkept s.place (fun _ _ => rfl) ht h.sound
  | true =>
      refine hkept _ (fun P hP => count_notify hP s.place) (by simp [ht, Place.notify]) ?_
      intro t' e he
      have hsound := h.sound t' e
      cases hp : s.place t' <;> simp_all [Place.notify]

/-! ## Moves and runs -/

theorem step_cases {s s' : Threads τ} {t : τ} {move : Move} (h : s.step t move = some s') :
    (∃ mode, move = .arrive mode ∧ s.place t = .outside ∧ s' = (s.ask t mode).attempt t mode) ∨
    (∃ mode notified, move = .wake ∧ s.place t = .waits mode notified ∧ s' = s.attempt t mode) ∨
    (∃ mode notified, move = .abort ∧ s.place t = .waits mode notified ∧
      s' = ⟨s.lock.withdraw mode, put s.place t .outside⟩) ∨
    (∃ mode, move = .leave ∧ s.place t = .inside mode ∧ s' = s.leave t mode) := by
  unfold step at h
  split at h
  · next mode ht => exact Or.inl ⟨mode, rfl, ht, (Option.some.inj h).symm⟩
  · next mode notified ht =>
      exact Or.inr (Or.inl ⟨mode, notified, rfl, ht, (Option.some.inj h).symm⟩)
  · next mode notified ht =>
      exact Or.inr (Or.inr (Or.inl ⟨mode, notified, rfl, ht, (Option.some.inj h).symm⟩))
  · next mode ht => exact Or.inr (Or.inr (Or.inr ⟨mode, rfl, ht, (Option.some.inj h).symm⟩))
  · exact absurd h (Option.some_ne_none s').symm

theorem Balanced.step {s s' : Threads τ} {t : τ} {move : Move} (h : s.Balanced)
    (hstep : s.step t move = some s') : s'.Balanced := by
  rcases step_cases hstep with ⟨mode, rfl, ht, rfl⟩ | ⟨mode, notified, rfl, ht, rfl⟩ |
    ⟨mode, notified, rfl, ht, rfl⟩ | ⟨mode, rfl, ht, rfl⟩
  · exact (h.ask ht mode).attempt (put_self _ _ _)
  · exact h.attempt ht
  · exact h.withdraw ht
  · exact h.leave ht

/-- What holds at the start, and is kept by every move, holds after every run. -/
theorem run_induction {P : Threads τ → Prop} {s s' : Threads τ} {moves : List (τ × Move)}
    (hstart : P s) (hstep : ∀ s s' t move, (t, move) ∈ moves → P s → s.step t move = some s' → P s')
    (h : s.run moves = some s') : P s' := by
  induction moves generalizing s with
  | nil =>
      obtain rfl : s = s' := Option.some.inj h
      exact hstart
  | cons first rest ih =>
      obtain ⟨t, move⟩ := first
      obtain ⟨next, hnext, hrest⟩ := Option.bind_eq_some_iff.mp h
      refine ih (hstep s next t move List.mem_cons_self hstart hnext) ?_ hrest
      exact fun s s' t move hm => hstep s s' t move (List.mem_cons_of_mem _ hm)

theorem balanced_run {s : Threads τ} {moves : List (τ × Move)}
    (h : ({} : Threads τ).run moves = some s) : s.Balanced :=
  run_induction balanced_start (fun _ _ _ _ _ hs hstep => hs.step hstep) h

/-! ## Exclusion -/

omit [DecidableEq τ] in
theorem Balanced.writer_unique {s : Threads τ} (h : s.Balanced) {t t' : τ}
    (ht : s.place t = .inside .write) (ht' : s.place t' = .inside .write) : t = t' := by
  have hle : {t | s.place t = .inside .write}.encard ≤ 1 := by
    have hcount : {t | s.place t = .inside .write}.encard = (s.lock.held .write : ℕ∞) :=
      h.inside .write
    rw [hcount, held]
    split <;> simp
  exact Set.encard_le_one_iff.mp hle t t' ht ht'

theorem Balanced.writerActive_iff {s : Threads τ} (h : s.Balanced) :
    s.lock.writerActive = true ↔ ∃ t, s.place t = .inside .write := by
  constructor
  · intro hactive
    have hcount : {t | s.place t = .inside .write}.encard = 1 := by
      refine (h.inside .write).trans ?_
      simp [held, hactive]
    obtain ⟨t, ht⟩ := Set.encard_eq_one.mp hcount
    exact ⟨t, ht.symm.subset rfl⟩
  · rintro ⟨t, ht⟩
    have hpos := h.held_pos ht
    by_contra hno
    simp [held, hno] at hpos

theorem Balanced.alone {s : Threads τ} (h : s.Balanced) {t t' : τ} {mode : Mode}
    (ht : s.place t = .inside .write) (ht' : s.place t' = .inside mode) : t' = t := by
  cases mode with
  | write => exact h.writer_unique ht' ht
  | read =>
      have hreaders := h.exclusive (h.writerActive_iff.mpr ⟨t, ht⟩)
      exact absurd (h.held_pos ht') (by simp [held, hreaders])

/-- An open lock has no writer inside, and for a writer no one at all. -/
theorem Balanced.not_inside_of_isOpen {s : Threads τ} (h : s.Balanced) {mode mode' : Mode}
    (hopen : s.lock.isOpen mode = true) (hmode : mode = .write ∨ mode' = .write) (t : τ) :
    s.place t ≠ .inside mode' := by
  intro ht
  have hpos := h.held_pos ht
  cases mode <;> cases mode' <;> simp_all [isOpen, held]

theorem Balanced.leave_place_self {s : Threads τ} (h : s.Balanced) {t : τ} {mode : Mode}
    (ht : s.place t = .inside mode) : (s.leave t mode).place t = .outside := by
  obtain ⟨after, notifies, hrelease, _⟩ := release_eq_ok (h.held_pos ht)
  rw [Threads.leave, hrelease]
  cases notifies with
  | false => exact put_self s.place t .outside
  | true => exact put_self (fun t => (s.place t).notify) t .outside

/-! ## Who enters -/

theorem step_place_of_ne {s s' : Threads τ} {t t' : τ} {move : Move}
    (hstep : s.step t move = some s') (ht : t' ≠ t) :
    s'.place t' = s.place t' ∨ s'.place t' = (s.place t').notify := by
  have hattempt : ∀ (s : Threads τ) mode, (s.attempt t mode).place t' = s.place t' := by
    intro s mode
    rw [attempt]
    split <;> exact put_of_ne _ ht _
  rcases step_cases hstep with ⟨mode, rfl, _, rfl⟩ | ⟨mode, notified, rfl, _, rfl⟩ |
    ⟨mode, notified, rfl, _, rfl⟩ | ⟨mode, rfl, _, rfl⟩
  · exact Or.inl ((hattempt _ mode).trans (put_of_ne _ ht _))
  · exact Or.inl (hattempt s mode)
  · exact Or.inl (put_of_ne _ ht _)
  · rw [leave]
    split
    · exact Or.inr (put_of_ne (fun t => (s.place t).notify) ht .outside)
    · exact Or.inl (put_of_ne _ ht _)
    · exact Or.inl (put_of_ne _ ht _)

theorem step_inside_of_ne {s s' : Threads τ} {t t' : τ} {move : Move}
    (hstep : s.step t move = some s') (ht : t' ≠ t) (mode : Mode) :
    s'.place t' = .inside mode ↔ s.place t' = .inside mode := by
  rcases step_place_of_ne hstep ht with h | h
  · rw [h]
  · rw [h]
    cases s.place t' <;> simp [Place.notify]

theorem attempt_place_self (s : Threads τ) (t : τ) (mode : Mode) :
    (s.attempt t mode).place t =
      if s.lock.isOpen mode then .inside mode else .waits mode false := by
  rw [attempt]
  split <;> exact put_self _ _ _

theorem isOpen_of_enter {s s' : Threads τ} {t : τ} {move : Move} {mode : Mode}
    (hstep : s.step t move = some s') (ht : s'.place t = .inside mode) :
    s.lock.isOpen mode = true := by
  have hopen : ∀ (s : Threads τ) mode', (s.attempt t mode').place t = .inside mode →
      mode' = mode ∧ s.lock.isOpen mode = true := by
    intro s mode' h
    rw [attempt_place_self] at h
    split at h
    · next hopen =>
        obtain rfl := Place.inside.inj h
        exact ⟨rfl, hopen⟩
    · exact absurd h (by simp)
  rcases step_cases hstep with ⟨mode', rfl, _, rfl⟩ | ⟨mode', notified, rfl, _, rfl⟩ |
    ⟨mode', notified, rfl, _, rfl⟩ | ⟨mode', rfl, _, rfl⟩
  · obtain ⟨rfl, h⟩ := hopen _ mode' ht
    -- To count oneself as waiting shuts the lock for others only.
    cases mode' <;> exact h
  · exact (hopen s mode' ht).2
  · exact absurd ht (by simp [put_self])
  · rw [leave] at ht
    split at ht <;> exact absurd ht (by simp [put_self])

/-- **Threads exclude one another.**  After every run, whatever the order of the moves, the
counters of the lock say how many threads are inside and wait, at most one writer is inside, and
then no reader, no thread came to be inside a read section while a writer waited, and every thread
inside a section can release the lock. -/
theorem run_exclusion {s : Threads τ} {moves : List (τ × Move)}
    (h : ({} : Threads τ).run moves = some s) :
    {t | s.place t = .inside .read}.encard = s.lock.readers ∧
    (s.lock.writerActive = true ↔ ∃! t, s.place t = .inside .write) ∧
    (∀ t t', s.place t = .inside .write → s.place t' = .inside .write → t = t') ∧
    ¬ (s.lock.writerActive = true ∧ 0 < s.lock.readers) ∧
    {t | ∃ notified, s.place t = .waits .write notified}.encard = s.lock.writersWaiting ∧
    (∀ t move s', s.step t move = some s' → ∀ t', s.place t' ≠ .inside .read →
      s'.place t' = .inside .read → s.lock.writersWaiting = 0) ∧
    (∀ t mode, s.place t = .inside mode → ∃ after, s.lock.release mode = .ok after) ∧
    ∀ t e, s.place t ≠ .failed e := by
  have hs := balanced_run h
  refine ⟨hs.inside .read, ?_, fun t t' => hs.writer_unique, ?_, hs.waiting, ?_, ?_, hs.sound⟩
  · rw [hs.writerActive_iff]
    constructor
    · rintro ⟨t, ht⟩
      exact ⟨t, ht, fun t' ht' => hs.writer_unique ht' ht⟩
    · rintro ⟨t, ht, _⟩
      exact ⟨t, ht⟩
  · rintro ⟨hactive, hreaders⟩
    exact absurd (hs.exclusive hactive) (Nat.pos_iff_ne_zero.mp hreaders)
  · intro t move s' hstep t' hbefore hafter
    have ht : t' = t := by
      by_contra hne
      exact hbefore ((step_inside_of_ne hstep hne .read).mp hafter)
    have hopen := isOpen_of_enter hstep (ht ▸ hafter)
    simp_all [isOpen]
  · intro t mode ht
    obtain ⟨after, notifies, hrelease, _⟩ := release_eq_ok (hs.held_pos ht)
    exact ⟨_, hrelease⟩

/-- A reader is inside, a writer waits for it, and another reader waits for the writer. -/
theorem run_exclusion_sample :
    ∃ s : Threads Nat,
      ({} : Threads Nat).run [(0, .arrive .read), (1, .arrive .write), (2, .arrive .read)] =
        some s ∧
      s.place 2 = .waits .read false ∧ {t | s.place t = .inside .read}.encard = 1 ∧
      {t | ∃ notified, s.place t = .waits .write notified}.encard = 1 := by
  have hrun : ({} : Threads Nat).run
      [(0, .arrive .read), (1, .arrive .write), (2, .arrive .read)] = some _ := rfl
  obtain ⟨hreaders, _, _, _, hwaiting, _⟩ := run_exclusion hrun
  exact ⟨_, hrun, rfl, hreaders, hwaiting⟩

end Threads
end SignatureSearch.ReadWriteLock
