/-
# `Proofs.Signature.Snapshot` — an index that was handed over does not change

Threads that share a cache build indexes in the same memory.  An index changes
while its pairs are inserted, and only then: the thread that made it is the only
one that works on it (`Confined`), and it is complete before it is handed over.
So a complete index stays as it is through every step (`Confined.step`) and every
run (`Confined.run`), and every index that was put into the cache is complete
(`Handed`).
-/
import SignatureSearch.Signature.SharedCache

namespace SignatureSearch.Signature.SharedCache

open ReadWriteLock (Mode Move Place Threads)

variable {τ ι : Type} [DecidableEq τ]

/-- The write sections that were completed, in the order in which they were. -/
def installs (log : List (Event τ)) : List Install :=
  log.filterMap fun
    | .installed _ install => some install
    | _ => none

omit [DecidableEq τ] in
theorem installs_append (log more : List (Event τ)) :
    installs (log ++ more) = installs log ++ installs more :=
  List.filterMap_append

omit [DecidableEq τ] in
theorem mem_installs {log : List (Event τ)} {install : Install} :
    install ∈ installs log ↔ ∃ t, .installed t install ∈ log := by
  rw [installs, List.mem_filterMap]
  constructor
  · rintro ⟨e, he, hinstall⟩
    cases e with
    | installed t install' =>
        obtain rfl : install' = install := Option.some.inj hinstall
        exact ⟨t, he⟩
    | entered t mode => cases hinstall
    | answered t field value => cases hinstall
  · rintro ⟨t, ht⟩
    exact ⟨_, ht, rfl⟩

namespace State

theorem setTask_self (s : State τ ι) (t : τ) (task : Task ι) : (s.setTask t task).task t = task :=
  if_pos rfl

theorem setTask_of_ne (s : State τ ι) {t t' : τ} (h : t' ≠ t) (task : Task ι) :
    (s.setTask t task).task t' = s.task t' :=
  if_neg h

omit [DecidableEq τ] in
theorem objects_modify_self {s : State τ ι} {number : Nat} {object : Object ι}
    (h : s.objects[number]? = some object) (f : Object ι → Object ι) :
    (s.modify number f).objects[number]? = some (f object) := by
  refine (List.getElem?_modify_eq f number s.objects).trans ?_
  rw [h]
  rfl

omit [DecidableEq τ] in
theorem objects_modify_of_ne (s : State τ ι) {number other : Nat} (h : other ≠ number)
    (f : Object ι → Object ι) : (s.modify number f).objects[other]? = s.objects[other]? :=
  List.getElem?_modify_ne f s.objects (Ne.symm h)

theorem objects_allocate {s : State τ ι} {number : Nat} (h : number < s.objects.length) (t : τ)
    (pairs : List (Pair ι)) (replaces : Bool) :
    (s.allocate t pairs replaces).objects[number]? = s.objects[number]? :=
  List.getElem?_append_left h

/-- What holds of a state and a log, and is kept by every step, is kept by every run. -/
theorem run_induction {P : State τ ι → List (Event τ) → Prop}
    (hstep : ∀ s log t action s' seen, P s log → s.step t action = some (s', seen) →
      P s' (log ++ seen))
    {s s' : State τ ι} (log : List (Event τ)) {more : List (Event τ)}
    {actions : List (τ × Action ι)} (hs : P s log) (h : s.run actions = some (s', more)) :
    P s' (log ++ more) := by
  induction actions generalizing s log more with
  | nil =>
      obtain ⟨rfl, rfl⟩ := Prod.mk.inj (Option.some.inj h)
      rwa [List.append_nil]
  | cons first rest ih =>
      obtain ⟨⟨next, seen⟩, hnext, hrest⟩ := Option.bind_eq_some_iff.mp h
      obtain ⟨⟨last, later⟩, hlast, heq⟩ := Option.map_eq_some_iff.mp hrest
      obtain ⟨rfl, rfl⟩ := Prod.mk.inj heq
      rw [← List.append_assoc]
      exact ih _ (hstep _ _ _ _ _ _ hs hnext) hlast

/-! ## Who works on which index -/

/-- The object with a number is a complete index. -/
def Holds (s : State τ ι) (number : Nat) (index : Index ι) : Prop :=
  s.objects[number]? = some ⟨index, true⟩

/-- Each index that is not complete is worked on by one thread, and what is about to be put in is
complete. -/
structure Confined (s : State τ ι) : Prop where
  unbuilt : ∀ t number rest replaces, s.task t = .builds number rest replaces →
    ∃ index, s.objects[number]? = some ⟨index, false⟩
  alone : ∀ t t' number rest rest' replaces replaces', s.task t = .builds number rest replaces →
    s.task t' = .builds number rest' replaces' → t' = t
  built : ∀ t number progress, s.task t = .replaces number progress →
    ∃ index, s.Holds number index

/-- Every index that is complete in one state is the same in another. -/
def Keeps (s s' : State τ ι) : Prop :=
  ∀ number index, s.Holds number index → s'.Holds number index

omit [DecidableEq τ] in
theorem confined_start (index : Index ι) : Confined (start index : State τ ι) where
  unbuilt _ _ _ _ h := absurd h (by simp [start])
  alone _ _ _ _ _ _ _ h := absurd h (by simp [start])
  built _ _ _ h := absurd h (by simp [start])

/-- A thread changes its task in a memory that keeps what is complete, and what others work on. -/
theorem Confined.setTask {s next : State τ ι} {t : τ} {task : Task ι} (h : s.Confined)
    (htask : next.task = s.task) (hkeeps : Keeps s next)
    (hothers : ∀ t' ≠ t, ∀ number rest replaces, s.task t' = .builds number rest replaces →
      ∃ index, next.objects[number]? = some ⟨index, false⟩)
    (hself : ∀ number rest replaces, task = .builds number rest replaces →
      (∃ index, next.objects[number]? = some ⟨index, false⟩) ∧
        ∀ t' ≠ t, ∀ rest' replaces', s.task t' ≠ .builds number rest' replaces')
    (hbuilt : ∀ number progress, task = .replaces number progress →
      ∃ index, next.Holds number index) : (next.setTask t task).Confined := by
  have hne : ∀ t' ≠ t, (next.setTask t task).task t' = s.task t' := by
    intro t' ht
    rw [setTask_of_ne _ ht, htask]
  refine ⟨?_, ?_, ?_⟩
  · intro t' number rest replaces ht'
    by_cases ht : t' = t
    · rw [ht, setTask_self] at ht'
      exact (hself number rest replaces ht').1
    · exact hothers t' ht number rest replaces ((hne t' ht).symm.trans ht')
  · intro t₁ t₂ number rest rest' replaces replaces' h₁ h₂
    by_cases ht₁ : t₁ = t
    · by_cases ht₂ : t₂ = t
      · rw [ht₁, ht₂]
      · rw [ht₁, setTask_self] at h₁
        exact absurd ((hne t₂ ht₂).symm.trans h₂) ((hself _ _ _ h₁).2 t₂ ht₂ _ _)
    · by_cases ht₂ : t₂ = t
      · rw [ht₂, setTask_self] at h₂
        exact absurd ((hne t₁ ht₁).symm.trans h₁) ((hself _ _ _ h₂).2 t₁ ht₁ _ _)
      · exact h.alone t₁ t₂ _ _ _ _ _ ((hne t₁ ht₁).symm.trans h₁) ((hne t₂ ht₂).symm.trans h₂)
  · intro t' number progress ht'
    by_cases ht : t' = t
    · rw [ht, setTask_self] at ht'
      exact hbuilt number progress ht'
    · obtain ⟨index, hindex⟩ := h.built t' number progress ((hne t' ht).symm.trans ht')
      exact ⟨index, hkeeps number index hindex⟩

theorem Confined.keep {s next : State τ ι} {t : τ} {task : Task ι} (h : s.Confined)
    (htask : next.task = s.task) (hobjects : next.objects = s.objects)
    (hbuilds : ∀ number rest replaces, task = .builds number rest replaces → s.task t = task)
    (hbuilt : ∀ number progress, task = .replaces number progress →
      ∃ index, s.Holds number index) :
    (next.setTask t task).Confined ∧ Keeps s (next.setTask t task) := by
  have hkeeps : Keeps s next := by
    intro number index hindex
    rw [Holds, hobjects]
    exact hindex
  refine ⟨h.setTask htask hkeeps ?_ ?_ ?_, hkeeps⟩
  · intro t' _ number rest replaces ht'
    rw [hobjects]
    exact h.unbuilt t' number rest replaces ht'
  · intro number rest replaces hself
    have ht := (hbuilds number rest replaces hself).trans hself
    refine ⟨?_, fun t' hne rest' replaces' ht' => hne (h.alone t t' _ _ _ _ _ ht ht')⟩
    rw [hobjects]
    exact h.unbuilt t number rest replaces ht
  · intro number progress hself
    obtain ⟨index, hindex⟩ := hbuilt number progress hself
    exact ⟨index, hkeeps number index hindex⟩

theorem Confined.allocate {s : State τ ι} (h : s.Confined) (t : τ) (pairs : List (Pair ι))
    (replaces : Bool) :
    (s.allocate t pairs replaces).Confined ∧ Keeps s (s.allocate t pairs replaces) := by
  have hold : ∀ (number : Nat) object, s.objects[number]? = some object →
      (s.allocate t pairs replaces).objects[number]? = some object := by
    intro number object hobject
    rw [objects_allocate (List.getElem?_eq_some_iff.mp hobject).1]
    exact hobject
  have hkeeps : Keeps s (s.allocate t pairs replaces) := fun number index => hold number _
  refine ⟨h.setTask rfl (fun number index => hold number _) ?_ ?_ ?_, hkeeps⟩
  · intro t' _ number rest replaces' ht'
    obtain ⟨index, hindex⟩ := h.unbuilt t' number rest replaces' ht'
    exact ⟨index, hold number _ hindex⟩
  · intro number rest replaces' hself
    obtain ⟨rfl, _, _⟩ := Task.builds.inj hself
    refine ⟨⟨.empty, List.getElem?_concat_length⟩, fun t' _ rest' replaces'' ht' => ?_⟩
    -- The number is new, so that nobody can have worked on it.
    obtain ⟨index, hindex⟩ := h.unbuilt t' _ _ _ ht'
    exact absurd (List.getElem?_eq_some_iff.mp hindex).1 (Nat.lt_irrefl _)
  · exact fun number progress hself => absurd hself (by simp)

theorem Confined.modify {s : State τ ι} {t : τ} {number : Nat} {rest : List (Pair ι)}
    {replaces : Bool} (h : s.Confined) (ht : s.task t = .builds number rest replaces)
    (f : Object ι → Object ι) {task : Task ι}
    (hself : ∀ number' rest' replaces', task = .builds number' rest' replaces' → number' = number ∧
      ∀ index, ∃ index', f ⟨index, false⟩ = ⟨index', false⟩)
    (hbuilt : ∀ number' progress, task = .replaces number' progress → number' = number ∧
      ∀ index, ∃ index', f ⟨index, false⟩ = ⟨index', true⟩) :
    ((s.modify number f).setTask t task).Confined ∧
      Keeps s ((s.modify number f).setTask t task) := by
  obtain ⟨index, hindex⟩ := h.unbuilt t number rest replaces ht
  have hsame := objects_modify_self hindex f
  have hkeeps : Keeps s (s.modify number f) := by
    intro number' index' hindex'
    have hne : number' ≠ number := by
      rintro rfl
      exact absurd (hindex.symm.trans hindex') (by simp)
    exact (objects_modify_of_ne s hne f).trans hindex'
  refine ⟨h.setTask rfl hkeeps ?_ ?_ ?_, hkeeps⟩
  · intro t' hne number' rest' replaces' ht'
    have hnumber : number' ≠ number := by
      rintro rfl
      exact hne (h.alone t t' _ _ _ _ _ ht ht')
    rw [objects_modify_of_ne s hnumber f]
    exact h.unbuilt t' number' rest' replaces' ht'
  · intro number' rest' replaces' htask
    obtain ⟨rfl, hf⟩ := hself number' rest' replaces' htask
    obtain ⟨index', hindex'⟩ := hf index
    refine ⟨⟨index', hsame.trans (congrArg some hindex')⟩, ?_⟩
    exact fun t' hne rest' replaces' ht' => hne (h.alone t t' _ _ _ _ _ ht ht')
  · intro number' progress htask
    obtain ⟨rfl, hf⟩ := hbuilt number' progress htask
    obtain ⟨index', hindex'⟩ := hf index
    exact ⟨index', hsame.trans (congrArg some hindex')⟩

/-! ## Steps and runs -/

omit [DecidableEq τ] in
theorem isBuilt_iff {s : State τ ι} {number : Nat} :
    s.isBuilt number = true ↔ ∃ index, s.Holds number index := by
  rw [isBuilt]
  unfold Holds
  cases hobject : s.objects[number]? with
  | none => simp
  | some object =>
      obtain ⟨index, isBuilt⟩ := object
      simp

theorem Confined.call {s s' : State τ ι} {t : τ} {c : Call ι} (h : s.Confined)
    (hcall : s.call t c = some s') : s'.Confined ∧ Keeps s s' := by
  unfold State.call at hcall
  split at hcall
  · obtain rfl := Option.some.inj hcall
    exact h.keep rfl rfl nofun nofun
  · split at hcall
    · next hbuilt =>
        obtain rfl := Option.some.inj hcall
        refine h.keep rfl rfl nofun fun number progress htask => ?_
        obtain ⟨rfl, _⟩ := Task.replaces.inj htask
        exact isBuilt_iff.mp hbuilt
    · exact absurd hcall (Option.some_ne_none _).symm
  · obtain rfl := Option.some.inj hcall
    exact h.allocate t _ false
  · obtain rfl := Option.some.inj hcall
    exact h.allocate t _ true
  · exact absurd hcall (Option.some_ne_none _).symm

theorem Confined.build {s s' : State τ ι} {t : τ} (h : s.Confined) (hbuild : s.build t = some s') :
    s'.Confined ∧ Keeps s s' := by
  unfold State.build at hbuild
  split at hbuild
  · next number pair rest replaces ht =>
      obtain rfl := Option.some.inj hbuild
      refine h.modify ht _ (fun number' rest' replaces' htask => ?_) nofun
      exact ⟨(Task.builds.inj htask).1.symm, fun index => ⟨_, rfl⟩⟩
  · next number replaces ht =>
      obtain rfl := Option.some.inj hbuild
      cases replaces with
      | false => exact h.modify ht _ nofun nofun
      | true =>
          refine h.modify ht _ nofun fun number' progress htask => ?_
          exact ⟨(Task.replaces.inj htask).1.symm, fun index => ⟨_, rfl⟩⟩
  · exact absurd hbuild (Option.some_ne_none _).symm

theorem Confined.access {s s' : State τ ι} {t : τ} {now : String} (h : s.Confined)
    (haccess : s.access t now = some s') : s'.Confined ∧ Keeps s s' := by
  unfold State.access at haccess
  split at haccess
  · obtain rfl := Option.some.inj haccess
    exact h.keep rfl rfl nofun nofun
  · next number progress _ ht =>
      obtain ⟨⟨fields, progress'⟩, _, rfl⟩ := Option.map_eq_some_iff.mp haccess
      refine h.keep rfl rfl nofun fun number' progress'' htask => ?_
      obtain ⟨rfl, _⟩ := Task.replaces.inj htask
      exact h.built t number progress ht
  · exact absurd haccess (Option.some_ne_none _).symm

theorem Confined.move {s s' : State τ ι} {t : τ} {move : Move} {seen : List (Event τ)}
    (h : s.Confined) (hmove : s.move t move = some (s', seen)) : s'.Confined ∧ Keeps s s' := by
  unfold State.move at hmove
  split at hmove
  · obtain ⟨threads, _, heq⟩ := Option.map_eq_some_iff.mp hmove
    obtain ⟨rfl, rfl⟩ := Prod.mk.inj heq
    cases move with
    | arrive mode => exact h.keep rfl rfl (fun _ _ _ _ => rfl) (h.built t)
    | wake => exact h.keep rfl rfl (fun _ _ _ _ => rfl) (h.built t)
    | abort => exact h.keep rfl rfl nofun nofun
    | leave => exact h.keep rfl rfl nofun nofun
  · exact absurd hmove (Option.some_ne_none _).symm

omit [DecidableEq τ] in
theorem eq_of_map_silent {next : Option (State τ ι)} {s' : State τ ι} {seen : List (Event τ)}
    (h : next.map (·, []) = some (s', seen)) : next = some s' ∧ seen = [] := by
  obtain ⟨s₁, hs₁, heq⟩ := Option.map_eq_some_iff.mp h
  obtain ⟨rfl, rfl⟩ := Prod.mk.inj heq
  exact ⟨hs₁, rfl⟩

theorem Confined.step {s s' : State τ ι} {t : τ} {action : Action ι} {seen : List (Event τ)}
    (h : s.Confined) (hstep : s.step t action = some (s', seen)) : s'.Confined ∧ Keeps s s' := by
  cases action with
  | call c => exact h.call (eq_of_map_silent hstep).1
  | build => exact h.build (eq_of_map_silent hstep).1
  | access now => exact h.access (eq_of_map_silent hstep).1
  | move move => exact h.move hstep

theorem Confined.run {s s' : State τ ι} {actions : List (τ × Action ι)} {more : List (Event τ)}
    (h : s.Confined) (hrun : s.run actions = some (s', more)) : s'.Confined ∧ Keeps s s' := by
  refine run_induction (P := fun s' _ => s'.Confined ∧ Keeps s s') ?_ []
    ⟨h, fun _ _ hindex => hindex⟩ hrun
  intro s₁ _ t action s₂ seen h₁ hstep
  obtain ⟨hconfined, hkeeps⟩ := h₁.1.step hstep
  exact ⟨hconfined, fun number index hindex => hkeeps number index (h₁.2 number index hindex)⟩

/-! ## What was put in -/

/-- The index of the start and all that were put in are complete. -/
structure Handed (initial : Index ι) (s : State τ ι) (log : List (Event τ)) : Prop where
  confined : s.Confined
  first : s.Holds 0 initial
  installed : ∀ install ∈ installs log, ∃ index, s.Holds install.number index

omit [DecidableEq τ] in
theorem handed_start (initial : Index ι) : Handed initial (start initial : State τ ι) [] where
  confined := confined_start initial
  first := rfl
  installed _ h := absurd h List.not_mem_nil

omit [DecidableEq τ] in
theorem installed_events {task : Task ι} {t t' : τ} {move : Move} {place : Place}
    {install : Install} (h : .installed t' install ∈ task.events t move place) :
    t' = t ∧ move = .leave ∧ task.events t move place = [.installed t install] ∧
      ∃ progress, task = .replaces install.number progress := by
  unfold Task.events at h
  split at h
  · split at h
    · cases List.mem_singleton.mp h
    · obtain ⟨rfl, rfl⟩ := Event.installed.inj (List.mem_singleton.mp h)
      exact ⟨rfl, rfl, rfl, _, rfl⟩
    · cases h
  · cases List.mem_singleton.mp h
  · cases List.mem_singleton.mp h
  · cases h

theorem installed_step {s s' : State τ ι} {t t' : τ} {action : Action ι} {seen : List (Event τ)}
    (hstep : s.step t action = some (s', seen)) {install : Install}
    (h : .installed t' install ∈ seen) :
    t' = t ∧ action = .move .leave ∧ seen = [.installed t install] ∧
      ∃ progress, s.task t = .replaces install.number progress := by
  have hsilent : seen ≠ [] := List.ne_nil_of_mem h
  cases action with
  | call c => exact absurd (eq_of_map_silent hstep).2 hsilent
  | build => exact absurd (eq_of_map_silent hstep).2 hsilent
  | access now => exact absurd (eq_of_map_silent hstep).2 hsilent
  | move move =>
      rw [State.step, State.move] at hstep
      split at hstep
      · obtain ⟨threads, _, heq⟩ := Option.map_eq_some_iff.mp hstep
        obtain ⟨_, rfl⟩ := Prod.mk.inj heq
        obtain ⟨ht, rfl, hseen, htask⟩ := installed_events h
        exact ⟨ht, rfl, hseen, htask⟩
      · cases hstep

theorem Handed.step {initial : Index ι} {s s' : State τ ι} {log seen : List (Event τ)} {t : τ}
    {action : Action ι} (h : Handed initial s log) (hstep : s.step t action = some (s', seen)) :
    Handed initial s' (log ++ seen) := by
  obtain ⟨hconfined, hkeeps⟩ := h.confined.step hstep
  refine ⟨hconfined, hkeeps 0 initial h.first, fun install hinstall => ?_⟩
  have hholds : ∃ index, s.Holds install.number index := by
    rw [installs_append, List.mem_append] at hinstall
    rcases hinstall with hinstall | hinstall
    · exact h.installed install hinstall
    · obtain ⟨t', ht'⟩ := mem_installs.mp hinstall
      obtain ⟨-, -, -, progress, htask⟩ := installed_step hstep ht'
      exact h.confined.built t install.number progress htask
  obtain ⟨index, hindex⟩ := hholds
  exact ⟨index, hkeeps install.number index hindex⟩

end State
end SignatureSearch.Signature.SharedCache
