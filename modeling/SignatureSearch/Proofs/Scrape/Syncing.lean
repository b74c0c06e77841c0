/-
# `Proofs.Scrape.Syncing` — what is left out of a scrape, and what stops it

Bringing checkouts up to date leaves out the packages for which it fails
(`syncPackages_returns`), whatever the order in which workers get done with them;
one package after the other is one such order (`exists_run_foldl`).  Checkouts
that are taken as they are stop the scrape at a package without a place, which
the workers leave out (`syncPackages_stops`).
-/
import SignatureSearch.Proofs.Scrape.Pool
import SignatureSearch.Proofs.Store.Calls

namespace SignatureSearch
namespace Scrape

open Pool

variable {w : Surroundings} {packages : List Package}

/-! ## Checkouts as they are -/

theorem mapM_place_eq_ok_iff {placed : List Synced} :
    (packages.mapM fun p => do
        return (p, ← (Repository.place w.root w.cacheDir p.name).mapError Error.repository)) =
        .ok placed ↔
      (∀ p ∈ packages, ∃ names, w.place p = .ok names) ∧
        placed = packages.filterMap (placed? w) := by
  induction packages generalizing placed with
  | nil => exact ⟨fun h => ⟨nofun, (Except.ok.inj h).symm⟩, fun h => h.2 ▸ rfl⟩
  | cons p rest ih =>
      rw [List.mapM_cons, Store.bind_eq_ok, List.forall_mem_cons]
      show (∃ one, ((w.place p).mapError Error.repository >>= fun names => pure (p, names)) =
        .ok one ∧ _) ↔ _
      cases hplace : w.place p with
      | error e =>
          exact iff_of_false (fun ⟨one, h, _⟩ => absurd h nofun) fun h => absurd h.1.1 nofun
      | ok names =>
          have hhead : (p :: rest).filterMap (placed? w) =
              (p, names) :: rest.filterMap (placed? w) :=
            List.filterMap_cons_some (by rw [placed?, hplace]; rfl)
          rw [hhead]
          constructor
          · rintro ⟨one, hone, h⟩
            obtain rfl := Except.ok.inj hone
            obtain ⟨others, hothers, h⟩ := Store.bind_eq_ok.mp h
            obtain rfl := Except.ok.inj h
            obtain ⟨hplaces, rfl⟩ := ih.mp hothers
            exact ⟨⟨⟨names, rfl⟩, hplaces⟩, rfl⟩
          · rintro ⟨⟨-, hplaces⟩, rfl⟩
            exact ⟨_, rfl, Store.bind_eq_ok.mpr ⟨_, ih.mpr ⟨hplaces, rfl⟩, rfl⟩⟩

theorem existing_eq_ok_iff {synced : List Synced} :
    existing w packages = .ok synced ↔
      (∀ p ∈ packages, ∃ names, w.place p = .ok names) ∧
        synced = (packages.filterMap (placed? w)).filter fun s => w.tree.isDirectory s.2 := by
  unfold existing
  rw [Store.bind_eq_ok]
  constructor
  · rintro ⟨placed, hplaced, h⟩
    obtain ⟨hplaces, rfl⟩ := mapM_place_eq_ok_iff.mp hplaced
    exact ⟨hplaces, (Except.ok.inj h).symm⟩
  · rintro ⟨hplaces, rfl⟩
    exact ⟨_, mapM_place_eq_ok_iff.mpr ⟨hplaces, rfl⟩, rfl⟩

namespace Pool

variable {size : Int} {s s' : State} {steps : List Step}

/-! ## One package after the other -/

theorem run_cons {step : Step} {next : State} (h : s.step w size packages step = some next)
    (hrest : next.run w size packages steps = some s') :
    s.run w size packages (step :: steps) = some s' := by
  rw [State.run, h]
  exact hrest

theorem exists_reply_update (settings : Settings) (remote : Repository.Remote) (name : PackageName)
    (names : List String) (tree : FileTree) :
    ∃ failure, (Repository.update settings remote name names tree).place =
      reply name names failure := by
  unfold Repository.update
  dsimp only
  split
  · exact ⟨none, rfl⟩
  · exact ⟨some _, rfl⟩
  · exact ⟨some _, rfl⟩
  · exact ⟨some _, rfl⟩

theorem exists_reply_clone {root : Path} {names : List String} {tree made : FileTree}
    (remote : Repository.Remote) (url : String) (name : PackageName)
    (h : Repository.prepare root names tree = .ok made) :
    ∃ failure, (Repository.clone remote root url name names tree).place =
      reply name names failure := by
  unfold Repository.clone
  rw [h]
  dsimp only
  split
  · exact ⟨none, rfl⟩
  · exact ⟨some _, rfl⟩

theorem clone_of_prepare_eq_error {root : Path} {names : List String} {tree : FileTree}
    {e : Repository.Error} (remote : Repository.Remote) (url : String) (name : PackageName)
    (h : Repository.prepare root names tree = .error e) :
    Repository.clone remote root url name names tree = ⟨.error e, tree, []⟩ := by
  rw [Repository.clone, h]

theorem step_proceed_put (s : State) {i : Nat} {stage stage' : Stage} {tree tree' : FileTree}
    (hi : i < packages.length) (h : stage.proceed? w tree = some (stage', tree')) :
    (s.put i stage tree).step w size packages (.proceed i) = some (s.put i stage' tree') := by
  rw [← s.put_put i stage stage' tree tree']
  refine step_proceed hi ?_
  rw [State.put_stage_self]
  exact h

theorem step_answer_put (s : State) {i : Nat} {p : Package} {names : List String}
    (failure : Option String) (tree tree' : FileTree) (hp : packages[i]? = some p) :
    (s.put i (.asks names) tree).step w size packages (.answer i failure tree') =
      some (s.put i (.done (reply p.name names failure)) tree') := by
  rw [← s.put_put i (.asks names) _ tree tree']
  exact step_answer failure tree' hp (State.put_stage_self s i (.asks names) tree)

theorem exists_run_update (settings : Settings) {i : Nat} {p : Package} {names : List String}
    {tree : FileTree} (hp : packages[i]? = some p) (hhas : tree.has names = true) :
    ∃ steps, (s.put i (.looks names) tree).run w size packages steps = some (s.put i
      (.done (Repository.update settings w.remote p.name names tree).place)
      (Repository.update settings w.remote p.name names tree).tree) := by
  have hi : i < packages.length := (List.getElem?_eq_some_iff.mp hp).1
  have hlook : (Stage.looks names).proceed? w tree = some (.asks names, tree) := by
    rw [Stage.proceed?, hhas, if_pos rfl]
  obtain ⟨failure, hfailure⟩ := exists_reply_update settings w.remote p.name names tree
  rw [hfailure]
  exact ⟨[.proceed i, .answer i failure _], run_cons (step_proceed_put s hi hlook)
    (run_cons (step_answer_put s failure tree _ hp) rfl)⟩

theorem exists_run_clone {i : Nat} {p : Package} {names : List String} {tree : FileTree}
    (url : String) (hp : packages[i]? = some p) (hhas : tree.has names = false) :
    ∃ steps, (s.put i (.looks names) tree).run w size packages steps = some (s.put i
      (.done (Repository.clone w.remote w.root url p.name names tree).place)
      (Repository.clone w.remote w.root url p.name names tree).tree) := by
  have hi : i < packages.length := (List.getElem?_eq_some_iff.mp hp).1
  have hlook : (Stage.looks names).proceed? w tree = some (.prepares names, tree) := by
    rw [Stage.proceed?, hhas]
    rfl
  cases hprepare : Repository.prepare w.root names tree with
  | error e =>
      have hblocked : (Stage.prepares names).proceed? w tree = some (.done (.error e), tree) := by
        rw [Stage.proceed?, hprepare]
      rw [clone_of_prepare_eq_error w.remote url p.name hprepare]
      exact ⟨[.proceed i, .proceed i], run_cons (step_proceed_put s hi hlook)
        (run_cons (step_proceed_put s hi hblocked) rfl)⟩
  | ok made =>
      have hmade : (Stage.prepares names).proceed? w tree = some (.asks names, made) := by
        rw [Stage.proceed?, hprepare]
      obtain ⟨failure, hfailure⟩ := exists_reply_clone w.remote url p.name hprepare
      rw [hfailure]
      exact ⟨[.proceed i, .proceed i, .answer i failure _], run_cons (step_proceed_put s hi hlook)
        (run_cons (step_proceed_put s hi hmade)
          (run_cons (step_answer_put s failure made _ hp) rfl))⟩

/-- A worker that does all that there is to do for a package does what `sync` does. -/
theorem exists_run_sync (settings : Settings) {i : Nat} {p : Package}
    (hbusy : (s.busy packages : Int) < size) (hnext : s.next? packages = some i)
    (hp : packages[i]? = some p) :
    ∃ steps, s.run w size packages steps = some (s.put i
      (.done (Repository.sync settings w.remote w.root w.cacheDir p none s.tree).place)
      (Repository.sync settings w.remote w.root w.cacheDir p none s.tree).tree) := by
  have htake := step_take (w := w) hbusy hnext hp
  unfold Repository.sync
  cases hplace : w.place p with
  | error e =>
      rw [show Repository.place w.root w.cacheDir p.name = .error e from hplace]
      rw [hplace] at htake
      exact ⟨[.take], run_cons htake rfl⟩
  | ok names =>
      rw [show Repository.place w.root w.cacheDir p.name = .ok names from hplace]
      rw [hplace] at htake
      dsimp only
      cases hhas : s.tree.has names with
      | true =>
          obtain ⟨steps, hsteps⟩ := exists_run_update settings hp hhas
          exact ⟨_, run_cons htake hsteps⟩
      | false =>
          obtain ⟨steps, hsteps⟩ := exists_run_clone _ hp hhas
          exact ⟨_, run_cons htake hsteps⟩

/-- What is collected of one list of packages after another one. -/
theorem collect_append (tasks more : List (Package × Stage)) :
    collect (tasks ++ more) = (collect tasks).bind fun
      | .ok synced => (collect more).map fun result => result.map (synced ++ ·)
      | .error e => some (.error e) := by
  induction tasks with
  | nil =>
      show collect more = (collect more).map fun result => result.map ([] ++ ·)
      cases collect more with
      | none => rfl
      | some result => cases result <;> rfl
  | cons t rest ih =>
      obtain ⟨p, stage⟩ := t
      rw [List.cons_append]
      cases stage with
      | done place =>
          cases place with
          | ok names =>
              rw [collect, collect, ih]
              cases collect rest with
              | none => rfl
              | some result =>
                  cases result with
                  | error e => rfl
                  | ok synced =>
                      cases collect more with
                      | none => rfl
                      | some result => cases result <;> rfl
          | error e =>
              rw [collect, collect]
              split
              · exact ih
              · rfl
      | _ => rfl

/-- One more package that is done is collected as `SyncOutcome.add` adds it. -/
theorem collect_add {tasks : List (Package × Stage)} {o : SyncOutcome} (p : Package)
    (one : Repository.Outcome) (h : collect tasks = some o.result) :
    collect (tasks ++ [(p, .done one.place)]) = some (o.add p one).result := by
  rw [collect_append, h, Option.bind_some, SyncOutcome.add]
  cases o.result with
  | error e => rfl
  | ok synced =>
      cases one.place with
      | ok names => rfl
      | error e =>
          dsimp only [collect]
          cases htolerated : isTolerated e with
          | true => exact congrArg (fun all => some (Except.ok all)) (List.append_nil synced)
          | false => rfl

theorem tasks_append (s : State) (before : List Package) (p : Package) (stage : Stage)
    (tree : FileTree) :
    (s.put before.length stage tree).tasks (before ++ [p]) = s.tasks before ++ [(p, stage)] := by
  unfold State.tasks
  rw [List.zipIdx_append, List.map_append]
  congr 1
  · refine List.map_congr_left fun t ht => ?_
    have hlt : t.2 < before.length := (List.getElem?_eq_some_iff.mp
      (List.mem_zipIdx_iff_getElem?.mp ht)).1
    exact congrArg (t.1, ·) (s.put_stage_of_ne hlt.ne stage tree)
  · simp [State.put_stage_self]

/-- The state when some packages are done, and nobody has taken another one. -/
structure Between (before : List Package) (o : SyncOutcome) (s : State) : Prop where
  done : ∀ i < before.length, ∃ place, s.stage i = .done place
  waits : ∀ i, before.length ≤ i → s.stage i = .waits
  result : s.result before = some o.result
  tree : s.tree = o.tree

theorem Between.start : Between [] ⟨.ok [], w.tree, []⟩ (State.start w) where
  done _ h := absurd h (Nat.not_lt_zero _)
  waits _ _ := rfl
  result := rfl
  tree := rfl

theorem Between.put {before : List Package} {o : SyncOutcome} (h : Between before o s)
    (p : Package) (one : Repository.Outcome) :
    Between (before ++ [p]) (o.add p one) (s.put before.length (.done one.place) one.tree) := by
  refine ⟨?_, ?_, ?_, rfl⟩
  · intro i hi
    rcases Nat.lt_or_ge i before.length with hlt | hge
    · rw [s.put_stage_of_ne hlt.ne]
      exact h.done i hlt
    · rw [List.length_append, List.length_singleton] at hi
      obtain rfl : i = before.length := by omega
      exact ⟨_, s.put_stage_self _ _ _⟩
  · intro i hi
    rw [List.length_append, List.length_singleton] at hi
    rw [s.put_stage_of_ne (by omega)]
    exact h.waits i (by omega)
  · rw [State.result, tasks_append]
    exact collect_add p one h.result

theorem Between.busy_eq_zero {before : List Package} {o : SyncOutcome} (h : Between before o s)
    (packages : List Package) : s.busy packages = 0 := by
  refine busy_eq_zero_iff.mpr fun i _ => ?_
  rcases Nat.lt_or_ge i before.length with hlt | hge
  · obtain ⟨place, hplace⟩ := h.done i hlt
    rw [hplace]
    rfl
  · rw [h.waits i hge]
    rfl

theorem Between.next?_eq {before after : List Package} {p : Package} {o : SyncOutcome}
    (h : Between before o s) : s.next? (before ++ p :: after) = some before.length := by
  refine List.find?_range_eq_some.mpr ⟨?_, ?_, ?_⟩
  · rw [h.waits _ le_rfl]
    rfl
  · simp
  · intro i hi
    obtain ⟨place, hplace⟩ := h.done i hi
    rw [hplace]
    rfl

/-- Packages that are taken one after the other come to what `syncAll` says. -/
theorem exists_run_foldl (hsize : 0 < size) (settings : Settings) {before rest : List Package}
    {o : SyncOutcome} (hpackages : packages = before ++ rest) (h : Between before o s) :
    ∃ steps s', s.run w size packages steps = some s' ∧
      Between packages (rest.foldl (fun o p => o.add p
        (Repository.sync settings w.remote w.root w.cacheDir p none o.tree)) o) s' := by
  induction rest generalizing before o s with
  | nil =>
      rw [List.append_nil] at hpackages
      exact ⟨[], s, rfl, hpackages ▸ h⟩
  | cons p rest ih =>
      have hbusy : (s.busy packages : Int) < size := by
        rw [h.busy_eq_zero packages]
        exact hsize
      have hnext : s.next? packages = some before.length := by
        rw [hpackages]
        exact h.next?_eq
      have hp : packages[before.length]? = some p := by
        rw [hpackages, List.getElem?_append_right le_rfl, Nat.sub_self]
        rfl
      obtain ⟨steps, hsteps⟩ := exists_run_sync (w := w) settings hbusy hnext hp
      rw [h.tree] at hsteps
      obtain ⟨more, s', hmore, hbetween⟩ :=
        ih (hpackages.trans (List.append_cons _ _ _)) (h.put p _)
      exact ⟨steps ++ more, s', run_append hsteps hmore, hbetween⟩

end Pool

/-! ## The outcome -/

/-- Checkouts that are taken as they are come to a result just if every package has a place, and
these are then the packages that have a checkout.  With workers, in whatever order they get done:
the work ends, and can go on until its outcome is there.  The outcome is a result if nothing
happens that concerns more than one package, and a result is always the packages for which git has
succeeded, in the order of the catalog.  Bringing the checkouts up to date one after the other is
one such run. -/
theorem syncPackages_returns (settings : Settings) (w : Surroundings) (plan : Plan)
    (packages : List Package) (hworkers : 0 < workers settings plan) :
    (plan.skipSync = true → ∀ synced,
      (syncPackages settings w plan packages).result = .ok synced ↔
        (∀ p ∈ packages, ∃ names, w.place p = .ok names) ∧
          synced = (packages.filterMap (placed? w)).filter fun s => w.tree.isDirectory s.2) ∧
    (plan.skipSync = false →
      (∃ steps s, (State.start w).run w (workers settings plan) packages steps = some s ∧
        s.result packages = some (syncPackages settings w plan packages).result ∧
        s.tree = (syncPackages settings w plan packages).tree) ∧
      ∀ steps s, (State.start w).run w (workers settings plan) packages steps = some s →
        steps.length ≤ 4 * packages.length ∧
        (s.result packages = none →
          ∃ step s', s.step w (workers settings plan) packages step = some s') ∧
        ∀ result, s.result packages = some result →
          (Unhindered w packages steps → ∃ synced, result = .ok synced) ∧
          ∀ synced, result = .ok synced →
            (∀ p ∈ packages, w.place p ≠ .error .nullCharacter) ∧
              synced = syncedBy w packages steps) := by
  constructor
  · intro hskip synced
    rw [syncPackages, if_pos hskip]
    exact existing_eq_ok_iff
  · intro hskip
    rw [syncPackages, if_neg (by rw [hskip]; exact Bool.false_ne_true), if_neg (by omega)]
    constructor
    · obtain ⟨steps, s, hrun, hbetween⟩ :=
        exists_run_foldl hworkers settings (List.nil_append packages).symm (Between.start (w := w))
      exact ⟨steps, s, hrun, hbetween.result, hbetween.tree⟩
    · intro steps s hrun
      refine ⟨run_length_le hrun, exists_step hworkers, fun result hresult => ⟨?_, ?_⟩⟩
      · exact fun hclear => exists_synced hrun hclear hresult
      · rintro synced rfl
        exact ⟨fun p => ne_nullCharacter hrun hresult, eq_syncedBy hrun hresult⟩

/-- Surroundings with one checkout, in which git has not been heard yet. -/
def oneCheckout : Surroundings where
  network := []
  remote := ⟨[], []⟩
  cacheDir := .ofText "/cache"
  root := .ofText "/"
  tree := FileTree.empty.makeDirectory ["cache", "x", "y"]

/-- Two workers: git is through with the second package first, and fails for the other one. -/
theorem syncPackages_returns_sample :
    let first : Package := { name := { author := "x", project := "y" } }
    let second : Package := { name := { author := "x", project := "z" } }
    let steps : List Step := [.take, .take, .proceed 1, .proceed 0, .proceed 1,
      .answer 1 none oneCheckout.tree, .answer 0 (some "refused") oneCheckout.tree]
    0 < workers {} { workers := some 2 } ∧
      ((State.start oneCheckout).run oneCheckout 2 [first, second] steps).map
        (·.result [first, second]) = some (some (.ok [(second, ["cache", "x", "z"])])) := by
  intro first second steps
  have hworkers : 0 < workers {} { workers := some 2 } := by decide
  refine ⟨hworkers, ?_⟩
  have hends : ((State.start oneCheckout).run oneCheckout 2 [first, second] steps).map
      (fun s => (s.result [first, second]).isSome) = some true := by
    decide +kernel
  obtain ⟨s, hrun, hresult⟩ := Option.map_eq_some_iff.mp hends
  obtain ⟨result, hresult⟩ := Option.isSome_iff_exists.mp hresult
  have hpool := (syncPackages_returns {} oneCheckout { workers := some 2 } [first, second]
    hworkers).2 rfl
  obtain ⟨-, -, hreturns⟩ := hpool.2 steps s hrun
  have hclear : Clear oneCheckout [first, second] oneCheckout.tree := by
    intro p _ names _
    rw [oneCheckout, FileTree.obstacle?_makeDirectory]
    exact List.find?_eq_none.mpr fun _ _ => nofun
  have hanswers : ∀ i failure tree, .answer i failure tree ∈ steps → tree = oneCheckout.tree := by
    intro i failure tree h
    simp [steps] at h
    obtain ⟨-, -, rfl⟩ | ⟨-, -, rfl⟩ := h
    · rfl
    · rfl
  obtain ⟨synced, rfl⟩ := (hreturns result hresult).1
    ⟨by decide +kernel, hclear, fun i failure tree h => hanswers i failure tree h ▸ hclear⟩
  rw [hrun, Option.map_some, hresult, ((hreturns _ hresult).2 synced rfl).2]
  decide +kernel

/-- A name that leads out of the cache directory: with workers its package is left out, but when
checkouts are taken as they are it stops the scrape, and the checkout of another package is lost. -/
theorem syncPackages_stops :
    let inside : Package := { name := { author := "x", project := "y" } }
    let outside : Package := { name := { author := "..", project := "x" } }
    0 < workers {} {} ∧
      (syncPackages {} oneCheckout { skipSync := true } [outside, inside]).result =
        .error (.repository (.outside outside.name)) ∧
      (syncPackages {} oneCheckout {} [outside, inside]).result =
        .ok [(inside, ["cache", "x", "y"])] := by
  decide +kernel

end Scrape
end SignatureSearch
