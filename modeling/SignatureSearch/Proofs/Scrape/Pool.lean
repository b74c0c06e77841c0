/-
# `Proofs.Scrape.Pool` — what workers come to

Workers that share packages, in whatever order they get done with them:

    run_length_le                the work ends
    exists_step                  until its outcome is there, it can go on
    eq_syncedBy                  a result is the packages for which git succeeded
    exists_synced                there is one if nothing concerns several packages

A step moves one package on (`step_cases`).  What a `Move` keeps of the `Course`
of its package, and of the files, is kept by every run (`Sound.run`).
-/
import Mathlib.Algebra.BigOperators.Group.Finset.Basic
import Mathlib.Algebra.Order.BigOperators.Group.Finset
import SignatureSearch.Scrape.Pool

namespace SignatureSearch

/-! ## What can stand in the way -/

theorem FileTree.isFile_makeDirectory (tree : FileTree) (names : List String) :
    (tree.makeDirectory names).isFile = tree.isFile := by
  funext path
  unfold FileTree.makeDirectory
  split
  · rfl
  · unfold FileTree.isFile FileTree.node?
    rw [List.lookup_append]
    cases hfound : tree.entries.lookup path with
    | some node => rfl
    | none =>
        -- What is added is no file.
        rw [Option.none_or, List.lookup_cons]
        cases path == names <;> rfl

theorem FileTree.obstacle?_makeDirectory (tree : FileTree) (names path : List String) :
    (tree.makeDirectory names).obstacle? path = tree.obstacle? path := by
  unfold FileTree.obstacle?
  rw [FileTree.isFile_makeDirectory]

namespace Repository

theorem place_eq_error {root cacheDir : Path} {name : PackageName} {e : Error}
    (h : place root cacheDir name = .error e) : e = .nullCharacter ∨ e = .outside name := by
  unfold place location at h
  dsimp only at h
  split at h
  · exact Or.inl (Except.error.inj h).symm
  · split at h
    · exact absurd h nofun
    · exact Or.inr (Except.error.inj h).symm

theorem prepare_eq_ok_iff {root : Path} {names : List String} {tree tree' : FileTree} :
    prepare root names tree = .ok tree' ↔
      tree.obstacle? names.dropLast = none ∧ tree' = tree.makeDirectory names.dropLast := by
  unfold prepare
  cases tree.obstacle? names.dropLast with
  | none => exact ⟨fun h => ⟨rfl, (Except.ok.inj h).symm⟩, fun h => congrArg _ h.2.symm⟩
  | some file => exact ⟨nofun, nofun⟩

theorem prepare_eq_error {root : Path} {names : List String} {tree : FileTree} {e : Error}
    (h : prepare root names tree = .error e) :
    tree.obstacle? names.dropLast ≠ none ∧ ∃ directory isFile, e = .blocked directory isFile := by
  unfold prepare at h
  cases hobstacle : tree.obstacle? names.dropLast with
  | none =>
      rw [hobstacle] at h
      exact absurd h nofun
  | some file =>
      rw [hobstacle] at h
      exact ⟨nofun, _, _, (Except.error.inj h).symm⟩

end Repository

namespace Scrape

variable {w : Surroundings} {packages : List Package}

namespace Pool

variable {size : Int} {s s' : State} {steps : List Step}

namespace State

theorem put_stage_self (s : State) (i : Nat) (stage : Stage) (tree : FileTree) :
    (s.put i stage tree).stage i = stage :=
  if_pos rfl

theorem put_stage_of_ne (s : State) {i j : Nat} (h : j ≠ i) (stage : Stage) (tree : FileTree) :
    (s.put i stage tree).stage j = s.stage j :=
  if_neg h

theorem put_put (s : State) (i : Nat) (stage stage' : Stage) (tree tree' : FileTree) :
    (s.put i stage tree).put i stage' tree' = s.put i stage' tree' := by
  refine congrArg (State.mk tree') (funext fun j => ?_)
  by_cases h : j = i
  · rw [if_pos h, if_pos h]
  · rw [if_neg h, if_neg h, s.put_stage_of_ne h]

end State

namespace Stage

theorem isWaiting_iff {stage : Stage} : stage.isWaiting = true ↔ stage = .waits := by
  cases stage <;> simp [isWaiting]

theorem eq_waits {stage : Stage} (hidle : stage.isBusy = false)
    (hopen : ∀ place, stage ≠ .done place) : stage = .waits := by
  cases stage with
  | waits => rfl
  | done place => exact absurd rfl (hopen place)
  | looks names => exact absurd hidle nofun
  | prepares names => exact absurd hidle nofun
  | asks names => exact absurd hidle nofun

end Stage

/-! ## What a step can do -/

/-- The moves of a package from one stage to another, with the step that makes it, and the files
before and after. -/
inductive Move (w : Surroundings) (p : Package) (i : Nat) :
    Step → Stage → FileTree → Stage → FileTree → Prop
  | takes {tree : FileTree} : Move w p i .take .waits tree (.ofPlace (w.place p)) tree
  | finds {names : List String} {tree : FileTree} :
      tree.has names = true → Move w p i (.proceed i) (.looks names) tree (.asks names) tree
  | misses {names : List String} {tree : FileTree} :
      tree.has names = false → Move w p i (.proceed i) (.looks names) tree (.prepares names) tree
  | prepares {names : List String} {tree : FileTree} :
      tree.obstacle? names.dropLast = none →
      Move w p i (.proceed i) (.prepares names) tree (.asks names)
        (tree.makeDirectory names.dropLast)
  | blocked {names : List String} {tree : FileTree} {directory : Path} {isFile : Bool} :
      tree.obstacle? names.dropLast ≠ none →
      Move w p i (.proceed i) (.prepares names) tree
        (.done (.error (.blocked directory isFile))) tree
  | answered {names : List String} {tree tree' : FileTree} {failure : Option String} :
      Move w p i (.answer i failure tree') (.asks names) tree
        (.done (reply p.name names failure)) tree'

theorem move_of_proceed {p : Package} {i : Nat} {stage stage' : Stage} {tree tree' : FileTree}
    (h : stage.proceed? w tree = some (stage', tree')) :
    Move w p i (.proceed i) stage tree stage' tree' := by
  cases stage with
  | looks names =>
      obtain ⟨rfl, rfl⟩ := Prod.mk.inj (Option.some.inj h)
      split
      · next hhas => exact .finds hhas
      · next hhas => exact .misses (Bool.eq_false_of_not_eq_true hhas)
  | prepares names =>
      unfold Stage.proceed? at h
      dsimp only at h
      cases hprepare : Repository.prepare w.root names tree with
      | ok made =>
          rw [hprepare] at h
          obtain ⟨rfl, rfl⟩ := Prod.mk.inj (Option.some.inj h)
          obtain ⟨hclear, rfl⟩ := Repository.prepare_eq_ok_iff.mp hprepare
          exact .prepares hclear
      | error e =>
          rw [hprepare] at h
          obtain ⟨rfl, rfl⟩ := Prod.mk.inj (Option.some.inj h)
          obtain ⟨hobstacle, directory, isFile, rfl⟩ := Repository.prepare_eq_error hprepare
          exact .blocked hobstacle
  | waits => exact absurd h nofun
  | asks names => exact absurd h nofun
  | done place => exact absurd h nofun

theorem move_of_answer {p : Package} {i : Nat} {failure : Option String} {stage stage' : Stage}
    (tree tree' : FileTree) (h : stage.answer? p.name failure = some stage') :
    Move w p i (.answer i failure tree') stage tree stage' tree' := by
  cases stage with
  | asks names =>
      obtain rfl := Option.some.inj h
      exact .answered
  | waits => exact absurd h nofun
  | looks names => exact absurd h nofun
  | prepares names => exact absurd h nofun
  | done place => exact absurd h nofun

theorem stage_of_next?_eq_some {i : Nat} (h : s.next? packages = some i) : s.stage i = .waits :=
  Stage.isWaiting_iff.mp (List.find?_some (p := fun i => (s.stage i).isWaiting) h)

theorem step_cases {step : Step} (h : s.step w size packages step = some s') :
    ∃ i p stage tree, packages[i]? = some p ∧ Move w p i step (s.stage i) s.tree stage tree ∧
      s' = s.put i stage tree := by
  cases step with
  | take =>
      simp only [State.step] at h
      split at h
      · obtain ⟨i, hnext, h⟩ := Option.bind_eq_some_iff.mp h
        obtain ⟨p, hp, h⟩ := Option.bind_eq_some_iff.mp h
        refine ⟨i, p, _, _, hp, ?_, (Option.some.inj h).symm⟩
        rw [stage_of_next?_eq_some hnext]
        exact .takes
      · exact absurd h nofun
  | proceed i =>
      simp only [State.step] at h
      split at h
      · next hi =>
        obtain ⟨⟨stage, tree⟩, hproceed, h⟩ := Option.map_eq_some_iff.mp h
        exact ⟨i, packages[i], stage, tree, List.getElem?_eq_getElem hi, move_of_proceed hproceed,
          h.symm⟩
      · exact absurd h nofun
  | answer i failure tree =>
      obtain ⟨p, hp, h⟩ := Option.bind_eq_some_iff.mp h
      obtain ⟨stage, hanswer, h⟩ := Option.bind_eq_some_iff.mp h
      exact ⟨i, p, stage, tree, hp, move_of_answer _ _ hanswer, (Option.some.inj h).symm⟩

/-- What holds at the start, and is kept by every step, holds after every run. -/
theorem run_induction {P : List Step → State → Prop}
    (hstep : ∀ past s step s', P past s → s.step w size packages step = some s' →
      P (past ++ [step]) s') (past : List Step) (h : P past s)
    (hrun : s.run w size packages steps = some s') : P (past ++ steps) s' := by
  induction steps generalizing past s with
  | nil =>
      obtain rfl := Option.some.inj hrun
      rwa [List.append_nil]
  | cons first rest ih =>
      obtain ⟨next, hfirst, hrest⟩ := Option.bind_eq_some_iff.mp hrun
      rw [List.append_cons]
      exact ih (past ++ [first]) (hstep past s first next h hfirst) hrest

theorem run_append {s₀ : State} {late : List Step} (h : s.run w size packages steps = some s₀)
    (hlate : s₀.run w size packages late = some s') :
    s.run w size packages (steps ++ late) = some s' := by
  induction steps generalizing s with
  | nil =>
      obtain rfl := Option.some.inj h
      exact hlate
  | cons first rest ih =>
      obtain ⟨next, hfirst, hrest⟩ := Option.bind_eq_some_iff.mp h
      rw [List.cons_append, State.run, hfirst]
      exact ih hrest

/-! ## The work ends -/

/-- How many steps a package can still be away from its outcome. -/
def Stage.rank : Stage → Nat
  | .waits => 4
  | .looks _ => 3
  | .prepares _ => 2
  | .asks _ => 1
  | .done _ => 0

/-- How many steps the packages can still be away from their outcomes. -/
def State.remaining (packages : List Package) (s : State) : Nat :=
  ∑ i ∈ Finset.range packages.length, (s.stage i).rank

theorem remaining_start : (State.start w).remaining packages = 4 * packages.length := by
  show ∑ _i ∈ Finset.range packages.length, 4 = _
  rw [Finset.sum_const_nat fun _ _ => rfl, Finset.card_range, Nat.mul_comm]

theorem Move.rank_lt {p : Package} {i : Nat} {step : Step} {stage stage' : Stage}
    {tree tree' : FileTree} (h : Move w p i step stage tree stage' tree') :
    stage'.rank < stage.rank := by
  cases h with
  | takes =>
      cases w.place p with
      | ok names => exact Nat.lt_succ_self 3
      | error e => exact Nat.succ_pos 3
  | finds _ => exact Nat.lt_of_sub_eq_succ rfl
  | misses _ => exact Nat.lt_succ_self 2
  | prepares _ => exact Nat.lt_succ_self 1
  | blocked _ => exact Nat.succ_pos 1
  | answered => exact Nat.succ_pos 0

theorem remaining_lt {step : Step} (h : s.step w size packages step = some s') :
    s'.remaining packages < s.remaining packages := by
  obtain ⟨i, p, stage, tree, hp, hmove, rfl⟩ := step_cases h
  have hlt : ((s.put i stage tree).stage i).rank < (s.stage i).rank := by
    rw [State.put_stage_self]
    exact hmove.rank_lt
  refine Finset.sum_lt_sum ?_ ⟨i, Finset.mem_range.mpr (List.getElem?_eq_some_iff.mp hp).1, hlt⟩
  intro j _
  by_cases hj : j = i
  · subst hj
    exact hlt.le
  · rw [State.put_stage_of_ne s hj]

/-- No run is longer than four steps for each package. -/
theorem run_length_le (h : (State.start w).run w size packages steps = some s) :
    steps.length ≤ 4 * packages.length := by
  have hspent := run_induction
    (P := fun past s => past.length + s.remaining packages ≤ 4 * packages.length) ?_ []
    (by rw [remaining_start]; exact (Nat.zero_add _).le) h
  · exact (Nat.le_add_right _ _).trans hspent
  · intro past s step s' hpast hstep
    have hlt := remaining_lt hstep
    rw [List.length_append, List.length_singleton]
    omega

/-! ## The outcome can always be reached -/

theorem step_take {i : Nat} {p : Package} (hbusy : (s.busy packages : Int) < size)
    (hnext : s.next? packages = some i) (hp : packages[i]? = some p) :
    s.step w size packages .take = some (s.put i (.ofPlace (w.place p)) s.tree) := by
  simp [State.step, hbusy, hnext, hp]

theorem step_proceed {i : Nat} {stage : Stage} {tree : FileTree} (hi : i < packages.length)
    (h : (s.stage i).proceed? w s.tree = some (stage, tree)) :
    s.step w size packages (.proceed i) = some (s.put i stage tree) := by
  simp [State.step, hi, h]

theorem step_answer {i : Nat} {p : Package} {names : List String} (failure : Option String)
    (tree : FileTree) (hp : packages[i]? = some p) (h : s.stage i = .asks names) :
    s.step w size packages (.answer i failure tree) =
      some (s.put i (.done (reply p.name names failure)) tree) := by
  simp [State.step, hp, h, Stage.answer?]

theorem exists_step_of_isBusy {i : Nat} (hi : i < packages.length)
    (hbusy : (s.stage i).isBusy = true) :
    ∃ step s', s.step w size packages step = some s' := by
  cases hstage : s.stage i with
  | waits =>
      rw [hstage] at hbusy
      exact absurd hbusy nofun
  | looks names => exact ⟨_, _, step_proceed hi (by rw [hstage]; rfl)⟩
  | prepares names =>
      cases hprepare : Repository.prepare w.root names s.tree with
      | ok tree =>
          exact ⟨_, _, step_proceed hi (by rw [hstage, Stage.proceed?]; rw [hprepare])⟩
      | error e =>
          exact ⟨_, _, step_proceed hi (by rw [hstage, Stage.proceed?]; rw [hprepare])⟩
  | asks names => exact ⟨_, _, step_answer none s.tree (List.getElem?_eq_getElem hi) hstage⟩
  | done place =>
      rw [hstage] at hbusy
      exact absurd hbusy nofun

theorem busy_eq_zero_iff :
    s.busy packages = 0 ↔ ∀ i < packages.length, (s.stage i).isBusy = false := by
  simp [State.busy, List.countP_eq_zero]

/-- As long as a package has no outcome, something can happen, if there are workers. -/
theorem exists_step_of_ne_done (hsize : 0 < size) {i : Nat} (hi : i < packages.length)
    (hstage : ∀ place, s.stage i ≠ .done place) :
    ∃ step s', s.step w size packages step = some s' := by
  by_cases hbusy : ∃ j < packages.length, (s.stage j).isBusy = true
  · obtain ⟨j, hj, hbusy⟩ := hbusy
    exact exists_step_of_isBusy hj hbusy
  -- All workers are free, so that the package waits, and one that waits can be taken.
  have hidle : ∀ j < packages.length, (s.stage j).isBusy = false := by
    intro j hj
    by_contra h
    exact hbusy ⟨j, hj, Bool.eq_true_of_not_eq_false h⟩
  have hwaits : (s.stage i).isWaiting = true :=
    Stage.isWaiting_iff.mpr (Stage.eq_waits (hidle i hi) hstage)
  cases hnext : s.next? packages with
  | none => exact absurd hwaits (List.find?_eq_none.mp hnext i (List.mem_range.mpr hi))
  | some k =>
      have hk : k < packages.length := List.mem_range.mp (List.mem_of_find?_eq_some hnext)
      have hbusy : (s.busy packages : Int) < size := by
        rw [busy_eq_zero_iff.mpr hidle]
        exact hsize
      exact ⟨_, _, step_take hbusy hnext (List.getElem?_eq_getElem hk)⟩

/-! ## The way of a package -/

/-- Whether this is the answer that git succeeded for a package. -/
def Step.succeeds (i : Nat) : Step → Bool
  | .answer j none _ => j = i
  | _ => false

/-- Whether git has succeeded for a package. -/
def succeeded (steps : List Step) (i : Nat) : Bool :=
  steps.any (·.succeeds i)

theorem succeeded_append (past : List Step) (step : Step) (i : Nat) :
    succeeded (past ++ [step]) i = (succeeded past i || step.succeeds i) := by
  rw [succeeded, List.any_append, List.any_cons, List.any_nil, Bool.or_false]
  rfl

/-- How a package comes to a stage, and whether git has succeeded for it. -/
inductive Course (w : Surroundings) (p : Package) : Bool → Stage → Prop
  | waits : Course w p false .waits
  | looks {names : List String} : w.place p = .ok names → Course w p false (.looks names)
  | prepares {names : List String} : w.place p = .ok names → Course w p false (.prepares names)
  | asks {names : List String} : w.place p = .ok names → Course w p false (.asks names)
  | synced {names : List String} : w.place p = .ok names → Course w p true (.done (.ok names))
  | unplaced {e : Repository.Error} :
      w.place p = .error e → Course w p false (.done (.error e))
  | blocked {names : List String} {directory : Path} {isFile : Bool} :
      w.place p = .ok names → Course w p false (.done (.error (.blocked directory isFile)))
  | refused {names : List String} {reason : String} :
      w.place p = .ok names → Course w p false (.done (.error (.sync p.name reason)))

theorem Move.course {p : Package} {i : Nat} {step : Step} {stage stage' : Stage}
    {tree tree' : FileTree} {b : Bool} (h : Move w p i step stage tree stage' tree')
    (hcourse : Course w p b stage) : Course w p (b || step.succeeds i) stage' := by
  cases h with
  | takes =>
      cases hcourse
      cases hplace : w.place p with
      | ok names => exact .looks hplace
      | error e => exact .unplaced hplace
  | finds _ =>
      cases hcourse with | looks hplace => exact .asks hplace
  | misses _ =>
      cases hcourse with | looks hplace => exact .prepares hplace
  | prepares _ =>
      cases hcourse with | prepares hplace => exact .asks hplace
  | blocked _ =>
      cases hcourse with | prepares hplace => exact .blocked hplace
  | @answered names _ _ failure =>
      cases hcourse with
      | asks hplace =>
          cases failure with
          | none =>
              rw [Step.succeeds, decide_eq_true rfl]
              exact .synced hplace
          | some reason => exact .refused hplace

theorem Move.succeeds_of_ne {p : Package} {i j : Nat} {step : Step} {stage stage' : Stage}
    {tree tree' : FileTree} (h : Move w p i step stage tree stage' tree') (hj : j ≠ i) :
    step.succeeds j = false := by
  cases h with
  | @answered names _ _ failure =>
      cases failure with
      | none => exact decide_eq_false hj.symm
      | some reason => rfl
  | _ => rfl

/-- No file stands where the directory of a checkout is made. -/
def Clear (w : Surroundings) (packages : List Package) (tree : FileTree) : Prop :=
  ∀ p ∈ packages, ∀ names, w.place p = .ok names → tree.obstacle? names.dropLast = none

/-- Nothing happens in a run that concerns more than one package: no path holds a null character,
and neither at the start nor after an answer of git does a file stand in the way. -/
structure Unhindered (w : Surroundings) (packages : List Package) (steps : List Step) : Prop where
  places : ∀ p ∈ packages, w.place p ≠ .error .nullCharacter
  start : Clear w packages w.tree
  answers : ∀ i failure tree, .answer i failure tree ∈ steps → Clear w packages tree

theorem Unhindered.of_append {past : List Step} (h : Unhindered w packages (past ++ steps)) :
    Unhindered w packages past where
  places := h.places
  start := h.start
  answers i failure tree hmem := h.answers i failure tree (List.mem_append_left _ hmem)

theorem Move.clear {p : Package} {i : Nat} {step : Step} {stage stage' : Stage}
    {tree tree' : FileTree} (h : Move w p i step stage tree stage' tree')
    (hclear : Clear w packages tree)
    (hanswer : ∀ i failure tree, step = .answer i failure tree → Clear w packages tree) :
    Clear w packages tree' := by
  cases h with
  | prepares _ =>
      intro q hq names hplace
      rw [FileTree.obstacle?_makeDirectory]
      exact hclear q hq names hplace
  | answered => exact hanswer _ _ _ rfl
  | takes => exact hclear
  | finds _ => exact hclear
  | misses _ => exact hclear
  | blocked _ => exact hclear

/-- Where no file stands in the way, no package finds that its directory cannot be made. -/
theorem Move.ne_blocked {p : Package} {i : Nat} {step : Step} {stage stage' : Stage}
    {tree tree' : FileTree} {b : Bool} (h : Move w p i step stage tree stage' tree')
    (hcourse : Course w p b stage) (hp : p ∈ packages) (hclear : Clear w packages tree)
    (directory : Path) (isFile : Bool) :
    stage' ≠ .done (.error (.blocked directory isFile)) := by
  cases h with
  | takes =>
      cases hplace : w.place p with
      | ok names => exact nofun
      | error e =>
          rcases Repository.place_eq_error hplace with rfl | rfl
          · exact nofun
          · exact nofun
  | finds _ => exact nofun
  | misses _ => exact nofun
  | prepares _ => exact nofun
  | blocked hobstacle =>
      cases hcourse with | prepares hplace => exact absurd (hclear p hp _ hplace) hobstacle
  | @answered names _ _ failure =>
      cases failure with
      | none => exact nofun
      | some reason => exact nofun

/-- What holds at every time of a run. -/
structure Sound (w : Surroundings) (packages : List Package) (past : List Step) (s : State) :
    Prop where
  courses : ∀ j p, packages[j]? = some p → Course w p (succeeded past j) (s.stage j)
  clear : Unhindered w packages past → Clear w packages s.tree
  ne_blocked : Unhindered w packages past → ∀ j directory isFile,
    s.stage j ≠ .done (.error (.blocked directory isFile))

theorem Sound.start : Sound w packages [] (State.start w) where
  courses _ _ _ := .waits
  clear h := h.start
  ne_blocked _ _ _ _ := nofun

theorem Sound.step {past : List Step} {step : Step} (h : Sound w packages past s)
    (hstep : s.step w size packages step = some s') : Sound w packages (past ++ [step]) s' := by
  obtain ⟨i, p, stage, tree, hp, hmove, rfl⟩ := step_cases hstep
  refine ⟨?_, ?_, ?_⟩
  · intro j q hq
    rw [succeeded_append]
    by_cases hj : j = i
    · subst hj
      obtain rfl := Option.some.inj (hp.symm.trans hq)
      rw [State.put_stage_self]
      exact hmove.course (h.courses j p hp)
    · rw [State.put_stage_of_ne s hj, hmove.succeeds_of_ne hj, Bool.or_false]
      exact h.courses j q hq
  · intro hclear
    refine hmove.clear (h.clear hclear.of_append) fun i failure tree heq => ?_
    exact hclear.answers i failure tree (List.mem_append_right _ (heq ▸ List.mem_cons_self))
  · intro hclear j directory isFile
    by_cases hj : j = i
    · subst hj
      rw [State.put_stage_self]
      exact hmove.ne_blocked (h.courses j p hp) (List.mem_of_getElem? hp)
        (h.clear hclear.of_append) directory isFile
    · rw [State.put_stage_of_ne s hj]
      exact h.ne_blocked hclear.of_append j directory isFile

theorem Sound.run (h : (State.start w).run w size packages steps = some s) :
    Sound w packages steps s :=
  run_induction (P := Sound w packages) (fun _ _ _ _ => Sound.step) [] Sound.start h

/-! ## What is collected -/

/-- The checkout that a stage stands for. -/
def Stage.checkout? : Stage → Option (List String)
  | .done place => place.toOption
  | _ => none

/-- The work on a package is done, and its outcome concerns nothing else. -/
inductive Stage.Settled : Stage → Prop
  | synced {names : List String} : Settled (.done (.ok names))
  | dropped {e : Repository.Error} : isTolerated e = true → Settled (.done (.error e))

theorem collect_eq_ok_iff {tasks : List (Package × Stage)} {synced : List Synced} :
    collect tasks = some (.ok synced) ↔
      (∀ t ∈ tasks, t.2.Settled) ∧
        synced = tasks.filterMap fun t => t.2.checkout?.map (t.1, ·) := by
  induction tasks generalizing synced with
  | nil => exact ⟨fun h => ⟨nofun, (Except.ok.inj (Option.some.inj h)).symm⟩, fun h => h.2 ▸ rfl⟩
  | cons t rest ih =>
      obtain ⟨p, stage⟩ := t
      rw [List.forall_mem_cons]
      cases stage with
      | waits => exact iff_of_false nofun fun h => absurd h.1.1 nofun
      | looks names => exact iff_of_false nofun fun h => absurd h.1.1 nofun
      | prepares names => exact iff_of_false nofun fun h => absurd h.1.1 nofun
      | asks names => exact iff_of_false nofun fun h => absurd h.1.1 nofun
      | done place =>
          cases place with
          | ok names =>
              constructor
              · intro h
                obtain ⟨result, hrest, h⟩ := Option.map_eq_some_iff.mp h
                cases result with
                | error e => exact absurd h nofun
                | ok others =>
                    obtain ⟨hsettled, rfl⟩ := ih.mp hrest
                    exact ⟨⟨.synced, hsettled⟩, (Except.ok.inj h).symm⟩
              · rintro ⟨⟨-, hsettled⟩, rfl⟩
                exact Option.map_eq_some_iff.mpr ⟨_, ih.mpr ⟨hsettled, rfl⟩, rfl⟩
          | error e =>
              rw [collect]
              cases htolerated : isTolerated e with
              | true =>
                  rw [if_pos rfl, ih]
                  exact ⟨fun h => ⟨⟨.dropped htolerated, h.1⟩, h.2⟩, fun h => ⟨h.1.2, h.2⟩⟩
              | false =>
                  refine iff_of_false nofun fun h => ?_
                  cases h.1.1 with
                  | dropped htrue => exact absurd (htolerated.symm.trans htrue) nofun

/-- As long as nothing is handed back, some package has no outcome. -/
theorem exists_of_collect_eq_none {tasks : List (Package × Stage)} (h : collect tasks = none) :
    ∃ t ∈ tasks, ∀ place, t.2 ≠ .done place := by
  induction tasks with
  | nil => exact absurd h nofun
  | cons t rest ih =>
      obtain ⟨p, stage⟩ := t
      by_cases hstage : ∃ place, stage = .done place
      · obtain ⟨place, rfl⟩ := hstage
        have hrest : collect rest = none := by
          cases place with
          | ok names => exact Option.map_eq_none_iff.mp h
          | error e =>
              rw [collect] at h
              split at h
              · exact h
              · exact absurd h nofun
        obtain ⟨t, ht, hopen⟩ := ih hrest
        exact ⟨t, List.mem_cons_of_mem _ ht, hopen⟩
      · exact ⟨_, List.mem_cons_self, fun place heq => hstage ⟨place, heq⟩⟩

/-- An error that is handed back is that of a package, and is not tolerated. -/
theorem exists_of_collect_eq_error {tasks : List (Package × Stage)} {e : Error}
    (h : collect tasks = some (.error e)) :
    ∃ t ∈ tasks, ∃ e', t.2 = .done (.error e') ∧ isTolerated e' = false := by
  induction tasks with
  | nil => exact absurd h nofun
  | cons t rest ih =>
      obtain ⟨p, stage⟩ := t
      cases stage with
      | waits => exact absurd h nofun
      | looks names => exact absurd h nofun
      | prepares names => exact absurd h nofun
      | asks names => exact absurd h nofun
      | done place =>
          have hlater : collect rest = some (.error e) → ∃ t ∈ (p, .done place) :: rest,
              ∃ e', t.2 = .done (.error e') ∧ isTolerated e' = false := by
            intro hrest
            obtain ⟨t, ht, hfound⟩ := ih hrest
            exact ⟨t, List.mem_cons_of_mem _ ht, hfound⟩
          cases place with
          | ok names =>
              obtain ⟨result, hrest, h⟩ := Option.map_eq_some_iff.mp h
              cases result with
              | ok others => exact absurd h nofun
              | error e' =>
                  obtain rfl := Except.error.inj h
                  exact hlater hrest
          | error e' =>
              rw [collect] at h
              split at h
              · exact hlater h
              · next htolerated =>
                exact ⟨_, List.mem_cons_self, e', rfl, Bool.eq_false_of_not_eq_true htolerated⟩

theorem mem_tasks {t : Package × Stage} (h : t ∈ s.tasks packages) :
    ∃ i, packages[i]? = some t.1 ∧ t.2 = s.stage i := by
  obtain ⟨⟨p, i⟩, hp, rfl⟩ := List.mem_map.mp h
  exact ⟨i, List.mem_zipIdx_iff_getElem?.mp hp, rfl⟩

def placed? (w : Surroundings) (p : Package) : Option Synced :=
  (w.place p).toOption.map (p, ·)

/-- The packages for which git has succeeded, in order, with their places. -/
def syncedBy (w : Surroundings) (packages : List Package) (steps : List Step) : List Synced :=
  packages.zipIdx.filterMap fun (p, i) => if succeeded steps i then placed? w p else none

/-- What the pool hands back are the packages for which git has succeeded. -/
theorem eq_syncedBy (h : (State.start w).run w size packages steps = some s)
    {synced : List Synced} (hresult : s.result packages = some (.ok synced)) :
    synced = syncedBy w packages steps := by
  obtain ⟨hsettled, rfl⟩ := collect_eq_ok_iff.mp hresult
  rw [State.tasks, List.filterMap_map]
  refine List.filterMap_congr fun t ht => ?_
  obtain ⟨p, i⟩ := t
  have hcourse := (Sound.run h).courses i p (List.mem_zipIdx_iff_getElem?.mp ht)
  have hdone : (s.stage i).Settled := hsettled _ (List.mem_map.mpr ⟨_, ht, rfl⟩)
  show (s.stage i).checkout?.map (p, ·) = if succeeded steps i = true then placed? w p else none
  generalize s.stage i = stage at hcourse hdone
  generalize succeeded steps i = b at hcourse
  cases hdone with
  | synced =>
      cases hcourse with
      | synced hplace => rw [if_pos rfl, placed?, hplace]; rfl
  | dropped _ => cases hcourse <;> rfl

theorem ne_nullCharacter (h : (State.start w).run w size packages steps = some s)
    {synced : List Synced} (hresult : s.result packages = some (.ok synced)) {p : Package}
    (hp : p ∈ packages) : w.place p ≠ .error .nullCharacter := by
  intro hnull
  obtain ⟨i, hi⟩ := List.mem_iff_getElem?.mp hp
  have hcourse := (Sound.run h).courses i p hi
  have hdone : (s.stage i).Settled := (collect_eq_ok_iff.mp hresult).1 (p, s.stage i)
    (List.mem_map.mpr ⟨(p, i), List.mem_zipIdx_iff_getElem?.mpr hi, rfl⟩)
  generalize s.stage i = stage at hcourse hdone
  generalize succeeded steps i = b at hcourse
  cases hcourse with
  | synced hplace => exact absurd (hplace.symm.trans hnull) nofun
  | blocked hplace => exact absurd (hplace.symm.trans hnull) nofun
  | refused hplace => exact absurd (hplace.symm.trans hnull) nofun
  | unplaced hplace =>
      obtain rfl := Except.error.inj (hplace.symm.trans hnull)
      cases hdone with | dropped htolerated => exact absurd htolerated nofun
  | _ => exact absurd hdone nofun

/-- Until something is handed back, something can happen, if there are workers. -/
theorem exists_step (hsize : 0 < size) (h : s.result packages = none) :
    ∃ step s', s.step w size packages step = some s' := by
  obtain ⟨t, ht, hopen⟩ := exists_of_collect_eq_none h
  obtain ⟨i, hp, hstage⟩ := mem_tasks ht
  rw [hstage] at hopen
  exact exists_step_of_ne_done hsize (List.getElem?_eq_some_iff.mp hp).1 hopen

/-- In a run in which nothing stands in the way, the pool does not hand back an error. -/
theorem exists_synced (h : (State.start w).run w size packages steps = some s)
    (hclear : Unhindered w packages steps) {result : Except Error (List Synced)}
    (hresult : s.result packages = some result) : ∃ synced, result = .ok synced := by
  cases result with
  | ok synced => exact ⟨synced, rfl⟩
  | error e =>
      obtain ⟨t, ht, e', hstage, htolerated⟩ := exists_of_collect_eq_error hresult
      obtain ⟨i, hp, hi⟩ := mem_tasks ht
      have hcourse := (Sound.run h).courses i t.1 hp
      have hblocked := (Sound.run h).ne_blocked hclear i
      rw [← hi, hstage] at hcourse hblocked
      generalize succeeded steps i = b at hcourse
      cases hcourse with
      | unplaced hplace =>
          rcases Repository.place_eq_error hplace with rfl | rfl
          · exact absurd hplace (hclear.places _ (List.mem_of_getElem? hp))
          · exact absurd htolerated nofun
      | blocked _ => exact absurd rfl (hblocked _ _)
      | refused _ => exact absurd htolerated nofun

end Pool
end Scrape
end SignatureSearch
