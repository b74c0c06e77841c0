/-
# `Proofs.Signature.Linearization` — a shared cache acts as if one call came after another

Threads read and write the fields of a shared cache one access at a time, in any
order.  What they see is explained by the write sections that were completed,
`installs log`, in the order in which they were: `fieldsAfter` are the fields
that a list of them leaves, and an event is `Justified` by what came before it:

    answered     the value is that of the fields after the write sections that
                 were completed before the read section was entered, and none
                 was completed since
    installed    the section was entered just before, with no event in between,
                 and what it returns is its own number and its own time

`Recorded` carries this through a run.  While a thread is inside a write section
the fields are somewhere on the way from one state to the next
(`Progress.Reached`), but then nobody else is inside, so that only this thread
can see them.  Between write sections the cache is the one that `Cache.replace`
gives when it is called once for each of them (`cacheAfter`).
-/
import SignatureSearch.Proofs.ReadWriteLock.Exclusion
import SignatureSearch.Proofs.Signature.Building

namespace SignatureSearch.Signature.SharedCache

open ReadWriteLock (Mode Move Place Threads)

variable {τ ι : Type} [DecidableEq τ]

/-! ## What write sections leave -/

/-- The fields after some write sections: those of the last one, or those of the start. -/
def fieldsAfter (done : List Install) : Fields where
  index := (done.getLast?.map (·.number)).getD 0
  generation := done.length
  replacedAt := done.getLast?.map (·.now)

/-- The fields as a write section left them: what it put in, and what it returned. -/
def Install.fields (install : Install) : Fields :=
  ⟨install.number, install.generation, install.replacedAt⟩

/-- What came before an event justifies it. -/
def Justified (before : List (Event τ)) : Event τ → Prop
  | .entered _ _ => True
  | .answered t field value =>
    ∃ earlier since, before = earlier ++ .entered t .read :: since ∧
      (∀ mode, .entered t mode ∉ since) ∧ installs since = [] ∧
      value = (fieldsAfter (installs earlier)).read field
  | .installed t install =>
    (∃ earlier, before = earlier ++ [.entered t .write]) ∧
      install.generation = (installs before).length + 1 ∧ install.replacedAt = some install.now

def Sound (log : List (Event τ)) : Prop :=
  ∀ before e later, log = before ++ e :: later → Justified before e

omit [DecidableEq τ] in
theorem Sound.concat {log : List (Event τ)} {e : Event τ} (hlog : Sound log)
    (he : Justified log e) : Sound (log ++ [e]) := by
  intro before e' later hsplit
  rcases List.eq_nil_or_concat later with rfl | ⟨later', last, rfl⟩
  · obtain ⟨rfl, hlast⟩ := List.append_inj' hsplit rfl
    obtain rfl : e = e' := List.singleton_inj.mp hlast
    exact he
  · have hsplit' : log ++ [e] = (before ++ e' :: later') ++ [last] := by
      rw [hsplit, List.concat_eq_append, List.append_assoc, List.cons_append]
    exact hlog before e' later' (List.append_inj' hsplit' rfl).1

omit [DecidableEq τ] in
theorem Sound.of_append {log more : List (Event τ)} (h : Sound (log ++ more)) : Sound log := by
  intro before e later hlog
  exact h before e (later ++ more) (by rw [hlog, List.append_assoc, List.cons_append])

omit [DecidableEq τ] in
theorem Sound.generations_eq {log : List (Event τ)} (h : Sound log) :
    (installs log).map (·.generation) = List.range' 1 (installs log).length := by
  induction log using List.reverseRecOn with
  | nil => rfl
  | append_singleton log e ih =>
      have he : Justified log e := h log e [] rfl
      rw [installs_append, List.map_append, ih h.of_append]
      cases e with
      | entered t mode => simp [installs]
      | answered t field value => simp [installs]
      | installed t install =>
          have hone : installs [Event.installed t install] = [install] := rfl
          rw [hone, List.length_append, List.length_singleton, List.range'_1_concat, List.map_cons,
            he.2.1, Nat.add_comm]
          rfl

omit [DecidableEq τ] in
theorem Sound.replacedAt_eq {log : List (Event τ)} (h : Sound log) {install : Install}
    (hmem : install ∈ installs log) : install.replacedAt = some install.now := by
  obtain ⟨t, ht⟩ := mem_installs.mp hmem
  obtain ⟨before, later, hlog⟩ := List.append_of_mem ht
  exact (h before _ later hlog).2.2

omit [DecidableEq τ] in
/-- The fields are those of the last write section, as it returned them. -/
theorem Sound.fieldsAfter_eq {log : List (Event τ)} (h : Sound log) :
    fieldsAfter (installs log) =
      ((installs log).getLast?.map Install.fields).getD ⟨0, 0, none⟩ := by
  rcases List.eq_nil_or_concat (installs log) with hnone | ⟨done, last, hlast⟩
  · rw [hnone]
    rfl
  · rw [List.concat_eq_append] at hlast
    have hgenerations := h.generations_eq
    rw [hlast, List.map_append, List.length_append, List.length_singleton,
      List.range'_1_concat] at hgenerations
    have hgeneration : last.generation = 1 + done.length :=
      List.singleton_inj.mp (List.append_inj' hgenerations rfl).2
    have hmem : last ∈ installs log := by
      rw [hlast]
      exact List.mem_append_right done (List.mem_singleton_self last)
    have htime := h.replacedAt_eq hmem
    rw [hlast]
    simp [fieldsAfter, Install.fields, hgeneration, htime, Nat.add_comm]

/-- The fields inside a write section, on the way from those that it found. -/
def Progress.Reached (number : Nat) (found fields : Fields) : Progress → Prop
  | .nothing => fields = found
  | .indexWritten => fields = { found with index := number }
  | .generationRead n => fields = { found with index := number } ∧ n = found.generation
  | .generationWritten => fields = ⟨number, found.generation + 1, found.replacedAt⟩
  | .timeWritten now => fields = ⟨number, found.generation + 1, some now⟩
  | .generationReadAgain now generation =>
    fields = ⟨number, found.generation + 1, some now⟩ ∧ generation = found.generation + 1
  | .done now generation replacedAt =>
    fields = ⟨number, found.generation + 1, some now⟩ ∧ generation = found.generation + 1 ∧
      replacedAt = some now

theorem Progress.Reached.next {number : Nat} {now : String} {found fields fields' : Fields}
    {progress progress' : Progress} (h : progress.Reached number found fields)
    (hnext : progress.next number now fields = some (fields', progress')) :
    progress'.Reached number found fields' := by
  cases progress with
  | nothing =>
      obtain ⟨rfl, rfl⟩ := Prod.mk.inj (Option.some.inj hnext)
      obtain rfl : fields = found := h
      rfl
  | indexWritten =>
      obtain ⟨rfl, rfl⟩ := Prod.mk.inj (Option.some.inj hnext)
      obtain rfl : fields = _ := h
      exact ⟨rfl, rfl⟩
  | generationRead n =>
      obtain ⟨rfl, rfl⟩ := Prod.mk.inj (Option.some.inj hnext)
      obtain ⟨rfl, rfl⟩ := h
      rfl
  | generationWritten =>
      obtain ⟨rfl, rfl⟩ := Prod.mk.inj (Option.some.inj hnext)
      obtain rfl : fields = _ := h
      rfl
  | timeWritten now =>
      obtain ⟨rfl, rfl⟩ := Prod.mk.inj (Option.some.inj hnext)
      obtain rfl : fields = _ := h
      exact ⟨rfl, rfl⟩
  | generationReadAgain now generation =>
      obtain ⟨rfl, rfl⟩ := Prod.mk.inj (Option.some.inj hnext)
      obtain ⟨rfl, rfl⟩ := h
      exact ⟨rfl, rfl, rfl⟩
  | done now generation replacedAt => exact absurd hnext (Option.some_ne_none _).symm

/-! ## Places and tasks -/

/-- The mode in which a thread at a place asks for the lock or holds it. -/
def modeOf : Place → Option Mode
  | .waits mode _ => some mode
  | .inside mode => some mode
  | _ => none

def Task.mode? : Task ι → Option Mode
  | .reads .. => some .read
  | .replaces .. => some .write
  | _ => none

def Task.IsUnderWay : Task ι → Prop
  | .reads _ seen => seen ≠ none
  | .replaces _ progress => progress ≠ .nothing
  | _ => False

/-- A thread is where its task needs it to be: it takes the lock in the mode of the task, and makes
accesses inside only. -/
structure Coherent (place : Place) (task : Task ι) : Prop where
  mode_eq : ∀ mode, modeOf place = some mode → task.mode? = some mode
  inside : task.IsUnderWay → ∃ mode, place = .inside mode

theorem Coherent.notify {place : Place} {task : Task ι} (h : Coherent place task) :
    Coherent place.notify task := by
  cases place with
  | waits mode notified =>
      refine ⟨h.mode_eq, fun hway => ?_⟩
      obtain ⟨_, hplace⟩ := h.inside hway
      exact absurd hplace (by simp)
  | _ => exact h

namespace State

/-! ## What a run records -/

/-- The log of a run explains the fields and what the threads have read. -/
structure Recorded (s : State τ ι) (log : List (Event τ)) : Prop where
  balanced : s.threads.Balanced
  coherent : ∀ t, Coherent (s.threads.place t) (s.task t)
  fields_eq : (∀ t, s.threads.place t ≠ .inside .write) → s.fields = fieldsAfter (installs log)
  reached : ∀ t number progress, s.threads.place t = .inside .write →
    s.task t = .replaces number progress →
      progress.Reached number (fieldsAfter (installs log)) s.fields
  value_eq : ∀ t field value, s.task t = .reads field (some value) →
    value = (fieldsAfter (installs log)).read field
  readEntry : ∀ t, s.threads.place t = .inside .read → ∃ earlier since,
    log = earlier ++ .entered t .read :: since ∧ (∀ mode, .entered t mode ∉ since) ∧
      installs since = []
  writeEntry : ∀ t, s.threads.place t = .inside .write → ∃ earlier,
    log = earlier ++ [.entered t .write]
  sound : Sound log

omit [DecidableEq τ] in
theorem recorded_start (index : Index ι) : Recorded (start index : State τ ι) [] where
  balanced := Threads.balanced_start
  coherent _ := ⟨nofun, nofun⟩
  fields_eq _ := rfl
  reached _ _ _ h := absurd h (by simp [start])
  value_eq _ _ _ h := absurd h (by simp [start])
  readEntry _ h := absurd h (by simp [start])
  writeEntry _ h := absurd h (by simp [start])
  sound before e later h := absurd h (by simp)

/-- A step of a thread that is about to take the lock, or builds: only its task changes. -/
structure Quiet (s s' : State τ ι) (t : τ) : Prop where
  threads_eq : s'.threads = s.threads
  fields_eq : s'.fields = s.fields
  task_eq : ∀ t' ≠ t, s'.task t' = s.task t'
  mode_eq : (s.task t).mode? = none
  rests : ¬ (s'.task t).IsUnderWay

theorem quiet_setTask {s s' : State τ ι} {t : τ} {task : Task ι} (hthreads : s'.threads = s.threads)
    (hfields : s'.fields = s.fields) (htask : s'.task = s.task) (hmode : (s.task t).mode? = none)
    (hrests : ¬ task.IsUnderWay) : Quiet s (s'.setTask t task) t where
  threads_eq := hthreads
  fields_eq := hfields
  task_eq t' ht := by rw [setTask_of_ne _ ht, htask]
  mode_eq := hmode
  rests := by rwa [setTask_self]

theorem quiet_call {s s' : State τ ι} {t : τ} {c : Call ι} (h : s.call t c = some s') :
    Quiet s s' t := by
  unfold call at h
  split at h
  · next field ht =>
      obtain rfl := Option.some.inj h
      exact quiet_setTask rfl rfl rfl (by rw [ht]; rfl) (by simp [Task.IsUnderWay])
  · next number ht =>
      split at h
      · obtain rfl := Option.some.inj h
        exact quiet_setTask rfl rfl rfl (by rw [ht]; rfl) (by simp [Task.IsUnderWay])
      · exact absurd h (Option.some_ne_none _).symm
  · next pairs ht =>
      obtain rfl := Option.some.inj h
      exact quiet_setTask rfl rfl rfl (by rw [ht]; rfl) (by simp [Task.IsUnderWay])
  · next pairs ht =>
      obtain rfl := Option.some.inj h
      exact quiet_setTask rfl rfl rfl (by rw [ht]; rfl) (by simp [Task.IsUnderWay])
  · exact absurd h (Option.some_ne_none _).symm

theorem quiet_build {s s' : State τ ι} {t : τ} (h : s.build t = some s') : Quiet s s' t := by
  unfold build at h
  split at h
  · next number pair rest replaces ht =>
      obtain rfl := Option.some.inj h
      exact quiet_setTask rfl rfl rfl (by rw [ht]; rfl) (by simp [Task.IsUnderWay])
  · next number replaces ht =>
      obtain rfl := Option.some.inj h
      refine quiet_setTask rfl rfl rfl (by rw [ht]; rfl) ?_
      cases replaces <;> simp [Task.IsUnderWay]
  · exact absurd h (Option.some_ne_none _).symm

theorem Recorded.quiet {s s' : State τ ι} {log : List (Event τ)} {t : τ} (h : s.Recorded log)
    (hq : Quiet s s' t) : s'.Recorded log := by
  have hnone : ∀ mode, modeOf (s.threads.place t) ≠ some mode := by
    intro mode hmode
    exact absurd ((h.coherent t).mode_eq mode hmode) (by simp [hq.mode_eq])
  refine ⟨?_, ?_, ?_, ?_, ?_, ?_, ?_, h.sound⟩
  · rw [hq.threads_eq]
    exact h.balanced
  · intro t'
    rw [hq.threads_eq]
    by_cases ht : t' = t
    · subst ht
      exact ⟨fun mode hmode => absurd hmode (hnone mode), fun hway => absurd hway hq.rests⟩
    · rw [hq.task_eq t' ht]
      exact h.coherent t'
  · rw [hq.threads_eq, hq.fields_eq]
    exact h.fields_eq
  · intro t' number progress hplace htask
    rw [hq.threads_eq] at hplace
    have ht : t' ≠ t := by
      rintro rfl
      exact hnone .write (by rw [hplace]; rfl)
    rw [hq.task_eq t' ht] at htask
    rw [hq.fields_eq]
    exact h.reached t' number progress hplace htask
  · intro t' field value htask
    have ht : t' ≠ t := by
      rintro rfl
      exact hq.rests (by rw [htask]; simp [Task.IsUnderWay])
    rw [hq.task_eq t' ht] at htask
    exact h.value_eq t' field value htask
  · rw [hq.threads_eq]
    exact h.readEntry
  · rw [hq.threads_eq]
    exact h.writeEntry

/-! ## Accesses -/

theorem Recorded.read {s : State τ ι} {log : List (Event τ)} {t : τ} {field : Field}
    (h : s.Recorded log) (hplace : s.threads.place t = .inside .read) :
    (s.setTask t (.reads field (some (s.fields.read field)))).Recorded log where
  balanced := h.balanced
  coherent t' := by
    by_cases ht : t' = t
    · subst ht
      rw [setTask_self]
      refine ⟨fun mode hmode => ?_, fun _ => ⟨.read, hplace⟩⟩
      obtain rfl : mode = .read := by simpa [setTask, hplace, modeOf, eq_comm] using hmode
      rfl
    · rw [setTask_of_ne _ ht]
      exact h.coherent t'
  fields_eq := h.fields_eq
  reached t' number progress hinside htask := by
    have ht : t' ≠ t := by
      rintro rfl
      exact absurd (hplace.symm.trans hinside) (by simp)
    exact h.reached t' number progress hinside ((setTask_of_ne s ht _).symm.trans htask)
  value_eq t' field' value htask := by
    by_cases ht : t' = t
    · subst ht
      rw [setTask_self] at htask
      obtain ⟨rfl, hvalue⟩ := Task.reads.inj htask
      -- No writer is inside together with this reader.
      have hfields := h.fields_eq fun w hw => by
        have hwt := h.balanced.alone hw hplace
        subst hwt
        exact absurd (hplace.symm.trans hw) (by simp)
      rw [← hfields]
      exact (Option.some.inj hvalue).symm
    · exact h.value_eq t' field' value ((setTask_of_ne s ht _).symm.trans htask)
  readEntry := h.readEntry
  writeEntry := h.writeEntry
  sound := h.sound

theorem Recorded.write {s : State τ ι} {log : List (Event τ)} {t : τ} {number : Nat} {now : String}
    {progress progress' : Progress} {fields : Fields} (h : s.Recorded log)
    (hplace : s.threads.place t = .inside .write) (htask : s.task t = .replaces number progress)
    (hnext : progress.next number now s.fields = some (fields, progress')) :
    (setTask { s with fields } t (.replaces number progress')).Recorded log where
  balanced := h.balanced
  coherent t' := by
    by_cases ht : t' = t
    · subst ht
      rw [setTask_self]
      refine ⟨fun mode hmode => ?_, fun _ => ⟨.write, hplace⟩⟩
      obtain rfl : mode = .write := by simpa [setTask, hplace, modeOf, eq_comm] using hmode
      rfl
    · rw [setTask_of_ne _ ht]
      exact h.coherent t'
  fields_eq hnobody := absurd hplace (hnobody t)
  reached t' number' progress'' hinside htask' := by
    obtain rfl := h.balanced.alone hplace hinside
    rw [setTask_self] at htask'
    obtain ⟨rfl, rfl⟩ := Task.replaces.inj htask'
    exact (h.reached t' number progress hplace htask).next hnext
  value_eq t' field value htask' := by
    have ht : t' ≠ t := by
      rintro rfl
      rw [setTask_self] at htask'
      exact absurd htask' (by simp)
    exact h.value_eq t' field value ((setTask_of_ne _ ht _).symm.trans htask')
  readEntry := h.readEntry
  writeEntry := h.writeEntry
  sound := h.sound

/-! ## Moves -/

theorem Recorded.coherent_of_ne {s : State τ ι} {log : List (Event τ)} {t t' : τ} {move : Move}
    {threads : Threads τ} (h : s.Recorded log) (hstep : s.threads.step t move = some threads)
    (ht : t' ≠ t) : Coherent (threads.place t') (s.task t') := by
  rcases Threads.step_place_of_ne hstep ht with hplace | hplace
  · rw [hplace]
    exact h.coherent t'
  · rw [hplace]
    exact (h.coherent t').notify

/-- A move after which no write section has ended.  What is seen of it is seen while no other
thread is inside a write section. -/
theorem Recorded.move {s : State τ ι} {log seen : List (Event τ)} {t : τ} {move : Move}
    {threads : Threads τ} {task : Task ι} (h : s.Recorded log)
    (hstep : s.threads.step t move = some threads) (hbefore : s.threads.place t ≠ .inside .write)
    (hcoherent : Coherent (threads.place t) task) (hrests : ¬ task.IsUnderWay)
    (hsound : Sound (log ++ seen)) (hinstalls : installs seen = [])
    (hentered : ∀ t' mode, .entered t' mode ∈ seen → t' = t)
    (hfree : seen ≠ [] → ∀ t', s.threads.place t' ≠ .inside .write)
    (hinside : ∀ mode, threads.place t = .inside mode → seen = [.entered t mode]) :
    (setTask { s with threads } t task).Recorded (log ++ seen) := by
  have hothers : ∀ t' ≠ t, ∀ mode,
      threads.place t' = .inside mode ↔ s.threads.place t' = .inside mode :=
    fun t' ht mode => Threads.step_inside_of_ne hstep ht mode
  have hbase : installs (log ++ seen) = installs log := by
    rw [installs_append, hinstalls, List.append_nil]
  have hfields : (∀ t' ≠ t, s.threads.place t' ≠ .inside .write) →
      s.fields = fieldsAfter (installs log) := by
    intro hnobody
    refine h.fields_eq fun t' => ?_
    by_cases ht : t' = t
    · rw [ht]
      exact hbefore
    · exact hnobody t' ht
  refine ⟨h.balanced.step hstep, fun t' => ?_, fun hnobody => ?_, ?_, ?_, ?_, ?_, hsound⟩
  · by_cases ht : t' = t
    · rw [ht, setTask_self]
      exact hcoherent
    · rw [setTask_of_ne _ ht]
      exact h.coherent_of_ne hstep ht
  · rw [hbase]
    exact hfields fun t' ht hw => hnobody t' ((hothers t' ht .write).mpr hw)
  · intro t' number progress hplace htask
    rw [hbase]
    by_cases ht : t' = t
    · subst ht
      rw [setTask_self] at htask
      have hnothing : progress = .nothing := by
        by_contra hne
        exact hrests (by rw [htask]; exact hne)
      subst hnothing
      have hseen : seen ≠ [] := by simp [hinside .write hplace]
      exact hfields fun t' _ => hfree hseen t'
    · exact h.reached t' number progress ((hothers t' ht .write).mp hplace)
        ((setTask_of_ne _ ht _).symm.trans htask)
  · intro t' field value htask
    rw [hbase]
    by_cases ht : t' = t
    · subst ht
      rw [setTask_self] at htask
      exact absurd (show task.IsUnderWay by rw [htask]; simp [Task.IsUnderWay]) hrests
    · exact h.value_eq t' field value ((setTask_of_ne _ ht _).symm.trans htask)
  · intro t' hplace
    by_cases ht : t' = t
    · subst ht
      exact ⟨log, [], by rw [hinside .read hplace], fun _ => List.not_mem_nil, rfl⟩
    · obtain ⟨earlier, since, hlog, hsince, hnone⟩ :=
        h.readEntry t' ((hothers t' ht .read).mp hplace)
      refine ⟨earlier, since ++ seen, ?_, fun mode hmem => ?_, ?_⟩
      · rw [hlog, List.append_assoc, List.cons_append]
      · rcases List.mem_append.mp hmem with hmem | hmem
        · exact hsince mode hmem
        · exact ht (hentered t' mode hmem)
      · rw [installs_append, hnone, hinstalls]
        rfl
  · intro t' hplace
    by_cases ht : t' = t
    · subst ht
      exact ⟨log, by rw [hinside .write hplace]⟩
    · have hw := (hothers t' ht .write).mp hplace
      by_cases hseen : seen = []
      · rw [hseen, List.append_nil]
        exact h.writeEntry t' hw
      · exact absurd hw (hfree hseen t')

theorem Recorded.install {s : State τ ι} {log : List (Event τ)} {t : τ} {move : Move}
    {threads : Threads τ} {number generation : Nat} {now : String} {replacedAt : Option String}
    (h : s.Recorded log) (hstep : s.threads.step t move = some threads)
    (hbefore : s.threads.place t = .inside .write) (hafter : threads.place t = .outside)
    (htask : s.task t = .replaces number (.done now generation replacedAt)) :
    (setTask { s with threads } t .idle).Recorded
      (log ++ [.installed t ⟨number, now, generation, replacedAt⟩]) := by
  obtain ⟨hfields, hgeneration, htime⟩ := h.reached t _ _ hbefore htask
  -- Nobody else was inside, so that nobody is.
  have hnobody : ∀ t' mode, threads.place t' ≠ .inside mode := by
    intro t' mode hplace
    by_cases ht : t' = t
    · rw [ht, hafter] at hplace
      exact absurd hplace (by simp)
    · exact ht (h.balanced.alone hbefore ((Threads.step_inside_of_ne hstep ht mode).mp hplace))
  have hbase : fieldsAfter (installs (log ++ [.installed t ⟨number, now, generation, replacedAt⟩])) =
      s.fields := by
    rw [hfields, installs_append]
    simp [installs, fieldsAfter]
  refine ⟨h.balanced.step hstep, fun t' => ?_, fun _ => hbase.symm, ?_, ?_, ?_, ?_,
    h.sound.concat ⟨h.writeEntry t hbefore, hgeneration, htime⟩⟩
  · by_cases ht : t' = t
    · rw [ht, setTask_self]
      refine ⟨fun mode hmode => ?_, fun hway => False.elim hway⟩
      exact absurd hmode (by simp [setTask, hafter, modeOf])
    · rw [setTask_of_ne _ ht]
      exact h.coherent_of_ne hstep ht
  · exact fun t' _ _ hplace => absurd hplace (hnobody t' .write)
  · intro t' field value htask'
    by_cases ht : t' = t
    · rw [ht, setTask_self] at htask'
      exact absurd htask' (by simp)
    · have hreads := (setTask_of_ne _ ht _).symm.trans htask'
      obtain ⟨mode, hplace⟩ := (h.coherent t').inside (by rw [hreads]; simp [Task.IsUnderWay])
      exact absurd (h.balanced.alone hbefore hplace) ht
  · exact fun t' hplace => absurd hplace (hnobody t' .read)
  · exact fun t' hplace => absurd hplace (hnobody t' .write)

theorem Recorded.approach {s : State τ ι} {log seen : List (Event τ)} {t : τ} {move : Move}
    {threads : Threads τ} {mode : Mode} (h : s.Recorded log)
    (hstep : s.threads.step t move = some threads)
    (hbefore : ∀ mode, s.threads.place t ≠ .inside mode) (hmode : (s.task t).mode? = some mode)
    (hafter : threads.place t = .inside mode ∧ seen = [.entered t mode] ∨
      threads.place t = .waits mode false ∧ seen = []) :
    (setTask { s with threads } t (s.task t)).Recorded (log ++ seen) := by
  have hrests : ¬ (s.task t).IsUnderWay := by
    intro hway
    obtain ⟨mode, hplace⟩ := (h.coherent t).inside hway
    exact hbefore mode hplace
  have hcoherent : Coherent (threads.place t) (s.task t) := by
    refine ⟨fun mode' hmode' => ?_, fun hway => absurd hway hrests⟩
    rcases hafter with ⟨hplace, _⟩ | ⟨hplace, _⟩ <;>
      · rw [hplace] at hmode'
        obtain rfl : mode = mode' := Option.some.inj hmode'
        exact hmode
  rcases hafter with ⟨hplace, rfl⟩ | ⟨hplace, rfl⟩
  · refine h.move hstep (hbefore .write) hcoherent hrests (h.sound.concat trivial) rfl ?_ ?_ ?_
    · intro t' mode' hmem
      exact (Event.entered.inj (List.mem_singleton.mp hmem)).1
    · intro _ t'
      exact h.balanced.not_inside_of_isOpen (Threads.isOpen_of_enter hstep hplace) (Or.inr rfl) t'
    · intro mode' hplace'
      rw [Place.inside.inj (hplace.symm.trans hplace')]
  · refine h.move hstep (hbefore .write) hcoherent hrests (by simpa using h.sound) rfl nofun nofun ?_
    intro mode' hplace'
    exact absurd (hplace.symm.trans hplace') (by simp)

theorem Recorded.depart {s : State τ ι} {log seen : List (Event τ)} {t : τ} {move : Move}
    {threads : Threads τ} (h : s.Recorded log) (hstep : s.threads.step t move = some threads)
    (hbefore : s.threads.place t ≠ .inside .write) (hafter : threads.place t = .outside)
    (hseen : seen = [] ∨ ∃ field value, seen = [.answered t field value] ∧
      s.threads.place t = .inside .read ∧ s.task t = .reads field (some value)) :
    (setTask { s with threads } t .idle).Recorded (log ++ seen) := by
  have hcoherent : Coherent (threads.place t) (.idle : Task ι) := by
    rw [hafter]
    exact ⟨nofun, nofun⟩
  have hinside : ∀ mode, threads.place t = .inside mode → seen = [.entered t mode] := by
    intro mode hplace
    exact absurd (hafter.symm.trans hplace) (by simp)
  rcases hseen with rfl | ⟨field, value, rfl, hplace, htask⟩
  · exact h.move hstep hbefore hcoherent nofun (by simpa using h.sound) rfl nofun nofun hinside
  · refine h.move hstep hbefore hcoherent nofun (h.sound.concat ?_) rfl ?_ ?_ hinside
    · obtain ⟨earlier, since, hlog, hsince, hnone⟩ := h.readEntry t hplace
      have hearlier : installs log = installs earlier := by
        rw [hlog, installs_append]
        exact (congrArg _ hnone).trans (List.append_nil _)
      refine ⟨earlier, since, hlog, hsince, hnone, ?_⟩
      rw [← hearlier]
      exact h.value_eq t field value htask
    · intro t' mode hmem
      exact absurd (List.mem_singleton.mp hmem) (by simp)
    · intro _ t' hw
      exact hbefore (h.balanced.alone hw hplace ▸ hw)

/-! ## Steps and runs -/

/-- Before its first access a thread may only take the lock, and in the mode of its task. -/
theorem mode?_of_allows {task : Task ι} {mode : Mode} (h : task.allows (.arrive mode) = true) :
    task.mode? = some mode := by
  unfold Task.allows at h
  split at h <;> simp_all [Task.mode?]

/-- A thread leaves after its last access only. -/
theorem shape_of_allows_leave {task : Task ι} (h : task.allows .leave = true) :
    (∃ field value, task = .reads field (some value)) ∨
      ∃ number now generation replacedAt,
        task = .replaces number (.done now generation replacedAt) := by
  unfold Task.allows at h
  split at h <;> simp_all

theorem Recorded.step_move {s s' : State τ ι} {log seen : List (Event τ)} {t : τ} {move : Move}
    (h : s.Recorded log) (hmove : s.move t move = some (s', seen)) : s'.Recorded (log ++ seen) := by
  unfold State.move at hmove
  split at hmove
  · next hallows =>
      obtain ⟨threads, hstep, heq⟩ := Option.map_eq_some_iff.mp hmove
      obtain ⟨rfl, rfl⟩ := Prod.mk.inj heq
      have hattempt : ∀ (threads : Threads τ) mode,
          (threads.attempt t mode).place t = .inside mode ∨
            (threads.attempt t mode).place t = .waits mode false := by
        intro threads mode
        rw [Threads.attempt_place_self]
        split
        · exact Or.inl rfl
        · exact Or.inr rfl
      rcases Threads.step_cases hstep with ⟨mode, rfl, ht, rfl⟩ | ⟨mode, notified, rfl, ht, rfl⟩ |
        ⟨mode, notified, rfl, ht, rfl⟩ | ⟨mode, rfl, ht, rfl⟩
      · refine h.approach hstep (by simp [ht]) (mode?_of_allows hallows) ?_
        rcases hattempt (s.threads.ask t mode) mode with hplace | hplace
        · exact Or.inl ⟨hplace, by rw [hplace]; rfl⟩
        · exact Or.inr ⟨hplace, by rw [hplace]; rfl⟩
      · refine h.approach hstep (by simp [ht]) ((h.coherent t).mode_eq mode (by rw [ht]; rfl)) ?_
        rcases hattempt s.threads mode with hplace | hplace
        · exact Or.inl ⟨hplace, by rw [hplace]; rfl⟩
        · exact Or.inr ⟨hplace, by rw [hplace]; rfl⟩
      · exact h.depart hstep (by simp [ht]) (Threads.put_self _ _ _) (Or.inl rfl)
      · have hafter := h.balanced.leave_place_self ht
        have hmode := (h.coherent t).mode_eq mode (by rw [ht]; rfl)
        rw [hafter]
        rcases shape_of_allows_leave hallows with ⟨field, value, htask⟩ |
          ⟨number, now, generation, replacedAt, htask⟩
        · obtain rfl : .read = mode := Option.some.inj (by rwa [htask] at hmode)
          rw [htask]
          exact h.depart hstep (by simp [ht]) hafter (Or.inr ⟨field, value, rfl, ht, htask⟩)
        · obtain rfl : .write = mode := Option.some.inj (by rwa [htask] at hmode)
          rw [htask]
          exact h.install hstep ht hafter htask
  · exact absurd hmove (Option.some_ne_none _).symm

theorem Recorded.step_access {s s' : State τ ι} {log : List (Event τ)} {t : τ} {now : String}
    (h : s.Recorded log) (haccess : s.access t now = some s') : s'.Recorded log := by
  unfold access at haccess
  split at haccess
  · next field hplace htask =>
      obtain rfl := Option.some.inj haccess
      exact h.read hplace
  · next number progress hplace htask =>
      obtain ⟨⟨fields, progress'⟩, hnext, rfl⟩ := Option.map_eq_some_iff.mp haccess
      exact h.write hplace htask hnext
  · exact absurd haccess (Option.some_ne_none _).symm

theorem Recorded.step {s s' : State τ ι} {log seen : List (Event τ)} {t : τ} {action : Action ι}
    (h : s.Recorded log) (hstep : s.step t action = some (s', seen)) :
    s'.Recorded (log ++ seen) := by
  cases action with
  | call c =>
      obtain ⟨hcall, rfl⟩ := eq_of_map_silent hstep
      rw [List.append_nil]
      exact h.quiet (quiet_call hcall)
  | build =>
      obtain ⟨hbuild, rfl⟩ := eq_of_map_silent hstep
      rw [List.append_nil]
      exact h.quiet (quiet_build hbuild)
  | access now =>
      obtain ⟨haccess, rfl⟩ := eq_of_map_silent hstep
      rw [List.append_nil]
      exact h.step_access haccess
  | move move => exact h.step_move hstep

theorem recorded_run {initial : Index ι} {s : State τ ι} {actions : List (τ × Action ι)}
    {log : List (Event τ)} (h : (start initial).run actions = some (s, log)) :
    s.Recorded log ∧ Handed initial s log := by
  refine run_induction (P := fun s log => s.Recorded log ∧ Handed initial s log) ?_ []
    ⟨recorded_start initial, handed_start initial⟩ h
  intro s log t action s' seen hs hstep
  exact ⟨hs.1.step hstep, hs.2.step hstep⟩

/-! ## The order of all calls -/

def indexAt (s : State τ ι) (number : Nat) : Index ι :=
  (s.objects[number]?.map (·.index)).getD .empty

def cache (s : State τ ι) : Cache ι :=
  ⟨s.indexAt s.fields.index, s.fields.generation, s.fields.replacedAt⟩

/-- The cache after some write sections were done one after another. -/
def cacheAfter (s : State τ ι) (initial : Index ι) (done : List Install) : Cache ι :=
  done.foldl (fun cache install => cache.replace install.now (s.indexAt install.number))
    (.start initial)

omit [DecidableEq τ] in
theorem cacheAfter_eq {s : State τ ι} {initial : Index ι} (h : s.Holds 0 initial)
    (done : List Install) :
    s.cacheAfter initial done =
      ⟨s.indexAt (fieldsAfter done).index, (fieldsAfter done).generation,
        (fieldsAfter done).replacedAt⟩ := by
  have hfirst : s.indexAt 0 = initial := by
    rw [indexAt, h]
    rfl
  induction done using List.reverseRecOn with
  | nil =>
      show Cache.start initial = ⟨s.indexAt 0, 0, none⟩
      rw [hfirst]
      rfl
  | append_singleton done install ih =>
      rw [cacheAfter, List.foldl_append, ← cacheAfter, ih]
      simp [Cache.replace, fieldsAfter]

omit [DecidableEq τ] in
theorem Handed.holds {initial : Index ι} {s : State τ ι} {log : List (Event τ)}
    (h : Handed initial s log) (hsound : Sound log) {t : τ} {field : Field} {number : Nat}
    (hmem : .answered t field (.index number) ∈ log) : ∃ index, s.Holds number index := by
  obtain ⟨before, later, hlog⟩ := List.append_of_mem hmem
  obtain ⟨earlier, since, hbefore, _, _, hvalue⟩ := hsound before _ later hlog
  have hnumber : number = (fieldsAfter (installs earlier)).index := by
    cases field with
    | index => exact Value.index.inj hvalue
    | _ => exact absurd hvalue (by simp [Fields.read])
  rcases List.eq_nil_or_concat (installs earlier) with hnone | ⟨done, last, hlast⟩
  · rw [hnumber, hnone]
    exact ⟨initial, h.first⟩
  · have hlast' : last ∈ installs log := by
      rw [hlog, hbefore, List.append_assoc, installs_append, hlast]
      simp
    rw [hnumber, hlast, List.concat_eq_append]
    simpa [fieldsAfter] using h.installed last hlast'

/-- **A shared cache is linearizable.**  Write sections come one after another, and the k-th one
returns k.  What is read is what the last one left that was completed before the read section.  An
index that was read gives the same answers from then on.  What is put in is what the call of the
thread says, and holds exactly the pairs of a call. -/
theorem run_linearizable {initial : Index ι} {actions : List (τ × Action ι)} {s : State τ ι}
    {log : List (Event τ)} (h : (start initial).run actions = some (s, log)) :
    (∀ before t install later, log = before ++ .installed t install :: later →
      (∃ earlier, before = earlier ++ [.entered t .write]) ∧
        install.generation = (installs before).length + 1 ∧
        install.replacedAt = some install.now) ∧
    (installs log).map (·.generation) = List.range' 1 (installs log).length ∧
    (∀ before t field value later, log = before ++ .answered t field value :: later →
      ∃ earlier since, before = earlier ++ .entered t .read :: since ∧
        (∀ mode, .entered t mode ∉ since) ∧ installs since = [] ∧
        value = (((installs earlier).getLast?.map Install.fields).getD ⟨0, 0, none⟩).read field) ∧
    s.Holds 0 initial ∧
    ((∀ t, s.threads.place t ≠ .inside .write) →
      s.cache = s.cacheAfter initial (installs log)) ∧
    (∀ t number, .answered t .index (.index number) ∈ log →
      ∀ more s' seen, s.run more = some (s', seen) → ∀ text limit,
        (∀ offset, s'.search number text limit offset =
          some ((s.indexAt number).search text limit offset)) ∧
        s'.suggest number text limit = some ((s.indexAt number).suggest text limit)) ∧
    InstallsAsCalled initial actions s log ∧
    ∀ number index, s.Holds number index → IsBuiltOf initial actions index := by
  obtain ⟨hrecorded, hhanded⟩ := recorded_run h
  obtain ⟨hfollows, hcalled⟩ := run_follows h
  have hsound := hrecorded.sound
  refine ⟨?_, hsound.generations_eq, ?_, hhanded.first, ?_, ?_, hcalled, hfollows.complete⟩
  · intro before t install later hlog
    exact hsound before _ later hlog
  · intro before t field value later hlog
    obtain ⟨earlier, since, hbefore, hsince, hnone, hvalue⟩ := hsound before _ later hlog
    refine ⟨earlier, since, hbefore, hsince, hnone, ?_⟩
    have hearlier : Sound earlier := by
      rw [hlog, hbefore, List.append_assoc] at hsound
      exact hsound.of_append
    rw [← hearlier.fieldsAfter_eq]
    exact hvalue
  · intro hnobody
    rw [cacheAfter_eq hhanded.first, cache, hrecorded.fields_eq hnobody]
  · intro t number hmem more s' seen hrun text limit
    obtain ⟨index, hindex⟩ := hhanded.holds hsound hmem
    have hlater : s'.Holds number index := (hhanded.confined.run hrun).2 number index hindex
    have hnow : s.indexAt number = index := by
      rw [indexAt, hindex]
      rfl
    refine ⟨fun offset => ?_, ?_⟩
    · rw [hnow, search, hlater]
      rfl
    · rw [hnow, suggest, hlater]
      rfl

/-- A reader leaves before a writer enters, and another one asks when the writer is half done: each
gets a complete state, and keeps the index that it got. -/
theorem run_linearizable_sample :
    ∃ (actions : List (Fin 3 × Action Nat)) (s : State (Fin 3) Nat) (log : List (Event (Fin 3))),
      (start .empty).run actions = some (s, log) ∧
      log = [.entered 1 .read, .answered 1 .index (.index 0), .entered 0 .write,
        .installed 0 ⟨1, "12:00", 1, some "12:00"⟩, .entered 2 .read,
        .answered 2 .index (.index 1)] ∧
      s.cache = s.cacheAfter .empty (installs log) ∧
      ∀ more s' seen, s.run more = some (s', seen) →
        s'.suggest 1 "" 9 = some ((s.indexAt 1).suggest "" 9) := by
  have hrun : (start .empty : State (Fin 3) Nat).run
      [(1, .call (.read .index)), (1, .move (.arrive .read)), (0, .call (.rebuild [("a", 7)])),
        (0, .build), (0, .build), (0, .move (.arrive .write)), (1, .access "11:58"),
        (1, .move .leave), (0, .move .wake), (0, .access "11:59"), (2, .call (.read .index)),
        (2, .move (.arrive .read)), (0, .access "11:59"), (0, .access "11:59"),
        (0, .access "12:00"), (0, .access "12:00"), (0, .access "12:01"), (0, .move .leave),
        (2, .move .wake), (2, .access "12:01"), (2, .move .leave)] = some (_, _) := rfl
  obtain ⟨_, _, _, _, hcache, hkept, _, _⟩ := run_linearizable hrun
  refine ⟨_, _, _, hrun, rfl, hcache (by decide), ?_⟩
  intro more s' seen hmore
  exact (hkept 2 1 (by decide) more s' seen hmore "" 9).2

end State
end SignatureSearch.Signature.SharedCache
