/-
# `Proofs.ReadWriteLock.Wakeup` — no thread waits for a notification that does not come

A thread that waits was notified since its wait began, or it was not.  As long
as no wait is given up, one that was not has somebody to wait for (`Attended`):

    a reader is inside               the last one notifies when it leaves
    a writer is inside               it notifies when it leaves
    a writer waits and is notified   it enters, and notifies when it leaves

The last case is needed since a reader that wakes may have to wait again for a
writer that is still among those that wait, and nobody notifies it a second time
before that writer has come and gone.  Were that writer to give up, the reader
would be left alone, as the example at the end shows.
-/
import SignatureSearch.Proofs.ReadWriteLock.Exclusion

namespace SignatureSearch.ReadWriteLock.Threads

variable {τ : Type} [DecidableEq τ]

/-- Somebody is inside, or a writer that was notified is about to be. -/
def Busy (s : Threads τ) : Prop :=
  0 < s.lock.readers ∨ s.lock.writerActive = true ∨ ∃ t, s.place t = .waits .write true

/-- Whoever waits and was not notified has somebody to wait for. -/
def Attended (s : Threads τ) : Prop :=
  ∀ t mode, s.place t = .waits mode false → s.Busy

omit [DecidableEq τ] in
theorem attended_start : Attended ({} : Threads τ) := by
  intro t mode ht
  exact absurd ht (by simp)

theorem Attended.ask {s : Threads τ} (h : s.Attended) {t : τ} (ht : s.place t = .outside)
    (mode : Mode) : (s.ask t mode).Attended := by
  intro t' mode' ht'
  have hne : t' ≠ t := by
    rintro rfl
    exact absurd ((put_self _ _ _).symm.trans ht') (by simp)
  rcases h t' mode' ((put_of_ne _ hne _).symm.trans ht') with hreaders | hactive | ⟨w, hw⟩
  · exact Or.inl (by cases mode <;> exact hreaders)
  · exact Or.inr (Or.inl (by cases mode <;> exact hactive))
  · have hwt : w ≠ t := by
      rintro rfl
      exact absurd (ht.symm.trans hw) (by simp)
    exact Or.inr (Or.inr ⟨w, (put_of_ne _ hwt _).trans hw⟩)

omit [DecidableEq τ] in
/-- While a writer waits, somebody is inside or about to be. -/
theorem Attended.busy_of_waiting {s : Threads τ} (h : s.Attended) (hs : s.Balanced)
    (hwaiting : s.lock.writersWaiting ≠ 0) : s.Busy := by
  have hcount : {t | Place.IsWaiting .write (s.place t)}.encard ≠ 0 := by
    rw [show {t | Place.IsWaiting .write (s.place t)}.encard = _ from hs.waiting]
    exact_mod_cast hwaiting
  obtain ⟨w, notified, hw⟩ := Set.nonempty_of_encard_ne_zero hcount
  cases notified with
  | true => exact Or.inr (Or.inr ⟨w, hw⟩)
  | false => exact h w .write hw

theorem Attended.attempt {s : Threads τ} (h : s.Attended) (hs : s.Balanced) {t : τ} {mode : Mode}
    {notified : Bool} (ht : s.place t = .waits mode notified) : (s.attempt t mode).Attended := by
  rw [Threads.attempt]
  split
  · -- The thread is inside now, so that there is somebody to wait for.
    intro _ _ _
    cases mode with
    | read => exact Or.inl (Nat.succ_pos _)
    | write => exact Or.inr (Or.inl rfl)
  · next hclosed =>
      intro _ _ _
      cases mode with
      | write =>
          by_cases hactive : s.lock.writerActive = true
          · exact Or.inr (Or.inl hactive)
          · exact Or.inl (Nat.pos_of_ne_zero (by simp_all [isOpen]))
      | read =>
          by_cases hactive : s.lock.writerActive = true
          · exact Or.inr (Or.inl hactive)
          · -- A writer waits.  It is not the thread that has just tested the lock, a reader.
            have hwaiting : s.lock.writersWaiting ≠ 0 := by simp_all [isOpen]
            rcases h.busy_of_waiting hs hwaiting with hreaders | hactive' | ⟨w, hw⟩
            · exact Or.inl hreaders
            · exact Or.inr (Or.inl hactive')
            · have hwt : w ≠ t := by
                rintro rfl
                exact absurd (ht.symm.trans hw) (by simp)
              exact Or.inr (Or.inr ⟨w, (put_of_ne _ hwt _).trans hw⟩)

theorem Attended.leave {s : Threads τ} (hs : s.Balanced) {t : τ} {mode : Mode}
    (ht : s.place t = .inside mode) : (s.leave t mode).Attended := by
  obtain ⟨after, notifies, hrelease, _, _, _, _, hnotifies⟩ := release_eq_ok (hs.held_pos ht)
  rw [Threads.leave, hrelease]
  cases notifies with
  | false => exact fun _ _ _ => Or.inl (hnotifies rfl)
  | true =>
      intro t' mode' ht'
      by_cases hne : t' = t
      · exact absurd ht' (by simp [hne, put_self])
      · have hnotified : (s.place t').notify = .waits mode' false :=
          (put_of_ne (fun t => (s.place t).notify) hne .outside).symm.trans ht'
        cases hp : s.place t' <;> simp [hp, Place.notify] at hnotified

theorem Attended.step {s s' : Threads τ} {t : τ} {move : Move} (h : s.Attended) (hs : s.Balanced)
    (hmove : move ≠ .abort) (hstep : s.step t move = some s') : s'.Attended := by
  rcases step_cases hstep with ⟨mode, rfl, ht, rfl⟩ | ⟨mode, notified, rfl, ht, rfl⟩ |
    ⟨mode, notified, rfl, ht, rfl⟩ | ⟨mode, rfl, ht, rfl⟩
  · exact (h.ask ht mode).attempt (hs.ask ht mode) (put_self _ _ _)
  · exact h.attempt hs ht
  · exact absurd rfl hmove
  · exact Attended.leave hs ht

theorem attended_run {s : Threads τ} {moves : List (τ × Move)}
    (hmoves : ∀ m ∈ moves, m.2 ≠ .abort) (h : ({} : Threads τ).run moves = some s) :
    s.Attended := by
  refine (run_induction (P := fun s => s.Balanced ∧ s.Attended)
    ⟨balanced_start, attended_start⟩ ?_ h).2
  intro s s' t move hm hs hstep
  exact ⟨hs.1.step hstep, hs.2.step hs.1 (hmoves _ hm) hstep⟩

theorem step_wake {s : Threads τ} {t : τ} {mode : Mode} {notified : Bool}
    (ht : s.place t = .waits mode notified) : s.step t .wake = some (s.attempt t mode) := by
  unfold step
  rw [ht]

/-- When nobody is inside, a thread that wakes enters, a reader unless a writer waits. -/
theorem attempt_enters {s : Threads τ} (hreaders : s.lock.readers = 0)
    (hactive : s.lock.writerActive = false) {mode : Mode}
    (hmode : mode = .read → s.lock.writersWaiting = 0) (t : τ) :
    (s.attempt t mode).place t = .inside mode := by
  have hopen : s.lock.isOpen mode = true := by
    cases mode with
    | read => simp [isOpen, hactive, hmode rfl]
    | write => simp [isOpen, hactive, hreaders]
  rw [attempt_place_self, if_pos hopen]

/-- **No wake-up is lost.**  After every run in which no wait was given up, a thread that waits
without having been notified waits while somebody is inside, or while a writer that was notified
is about to enter; so if somebody waits and nobody is inside, there is a thread that was notified
and enters when it is its turn. -/
theorem run_wakeup {s : Threads τ} {moves : List (τ × Move)}
    (hmoves : ∀ m ∈ moves, m.2 ≠ .abort) (h : ({} : Threads τ).run moves = some s) :
    (∀ t mode, s.place t = .waits mode false →
      0 < s.lock.readers ∨ s.lock.writerActive = true ∨
        ∃ w, s.place w = .waits .write true ∧ ∃ s', s.step w .wake = some s') ∧
    ((∃ t mode notified, s.place t = .waits mode notified) → (∀ t mode, s.place t ≠ .inside mode) →
      ∃ t mode, s.place t = .waits mode true ∧
        ∃ s', s.step t .wake = some s' ∧ s'.place t = .inside mode) := by
  have hs := balanced_run h
  have hattended := attended_run hmoves h
  constructor
  · intro t mode ht
    rcases hattended t mode ht with hreaders | hactive | ⟨w, hw⟩
    · exact Or.inl hreaders
    · exact Or.inr (Or.inl hactive)
    · exact Or.inr (Or.inr ⟨w, hw, _, step_wake hw⟩)
  · rintro ⟨t, mode, notified, ht⟩ hnobody
    have hreaders : s.lock.readers = 0 := by
      by_contra hne
      have hcount : {t | Place.IsInside .read (s.place t)}.encard ≠ 0 := by
        rw [show {t | Place.IsInside .read (s.place t)}.encard = _ from hs.inside .read]
        exact_mod_cast hne
      obtain ⟨r, hr⟩ := Set.nonempty_of_encard_ne_zero hcount
      exact hnobody r .read hr
    have hactive : s.lock.writerActive = false := by
      by_contra hne
      obtain ⟨w, hw⟩ := hs.writerActive_iff.mp (by simpa using hne)
      exact hnobody w .write hw
    -- Whoever is attended waits for a writer that was notified, and that enters.
    have hbusy : s.Busy → ∃ t mode, s.place t = .waits mode true ∧
        ∃ s', s.step t .wake = some s' ∧ s'.place t = .inside mode := by
      rintro (hpos | hpos | ⟨w, hw⟩)
      · exact absurd hreaders (Nat.pos_iff_ne_zero.mp hpos)
      · exact absurd hpos (by simp [hactive])
      · refine ⟨w, .write, hw, _, step_wake hw, attempt_enters hreaders hactive ?_ w⟩
        exact fun h => absurd h (by decide)
    by_cases hwaiting : s.lock.writersWaiting = 0
    · cases notified with
      | true =>
          exact ⟨t, mode, ht, _, step_wake ht, attempt_enters hreaders hactive (fun _ => hwaiting) t⟩
      | false => exact hbusy (hattended t mode ht)
    · exact hbusy (hattended.busy_of_waiting hs hwaiting)

/-- The last reader has left, and another one tests the lock before the writer does: it waits
again without being notified, and the writer is about to enter. -/
theorem run_wakeup_sample :
    ∃ s : Threads Nat,
      ({} : Threads Nat).run [(0, .arrive .read), (1, .arrive .write), (2, .arrive .read),
        (0, .leave), (2, .wake)] = some s ∧
      s.place 2 = .waits .read false ∧ s.lock.readers = 0 ∧ s.lock.writerActive = false ∧
      ∃ w, s.place w = .waits .write true ∧ ∃ s', s.step w .wake = some s' := by
  have hrun : ({} : Threads Nat).run [(0, .arrive .read), (1, .arrive .write), (2, .arrive .read),
      (0, .leave), (2, .wake)] = some _ := rfl
  refine ⟨_, hrun, rfl, rfl, rfl, ?_⟩
  rcases (run_wakeup (by decide) hrun).1 2 .read rfl with hreaders | hactive | hw
  · exact absurd hreaders (by decide)
  · exact absurd hactive (by decide)
  · exact hw

/-- When that writer gives up instead, nobody is left to notify the reader. -/
example : ∃ s : Threads Nat,
    ({} : Threads Nat).run [(0, .arrive .read), (1, .arrive .write), (2, .arrive .read),
      (0, .leave), (2, .wake), (1, .abort)] = some s ∧
    s.place 2 = .waits .read false ∧ s.lock = {} ∧ s.place 0 = .outside ∧ s.place 1 = .outside :=
  ⟨_, rfl, rfl, rfl, rfl, rfl⟩

end SignatureSearch.ReadWriteLock.Threads
