/-
# `Proofs.Signature.Building` — an index is built of the pairs of its call

A thread that builds an index inserts the pairs of its call one after another,
and hands the index over when none is left.  The invariant is told from what the
threads have done so far (`lastCall?`):

    builds      the object holds the pairs that are inserted already, and these
                and the rest are those of the call
    replaces    the number is that of the call, or the object is complete and
                holds all the pairs of the call
    complete    every complete index is that of the start, or was built of the
                pairs of some call

A thread does not begin a call inside another one, so that its last call is the
one that it is about.  So a write section puts in what its call says, and every
complete index is the one of the start or `Index.build` of the pairs of some call
(`run_follows`).
-/
import Mathlib.Data.List.Induction
import SignatureSearch.Proofs.Signature.Snapshot

namespace SignatureSearch.Signature.SharedCache

variable {τ ι : Type} [DecidableEq τ]

/-! ## Calls -/

/-- The call that a thread begins by an action. -/
def callOf? (t : τ) : τ × Action ι → Option (Call ι)
  | (t', .call c) => if t' = t then some c else none
  | _ => none

/-- The last call that a thread has begun. -/
def lastCall? (t : τ) (actions : List (τ × Action ι)) : Option (Call ι) :=
  (actions.filterMap (callOf? t)).getLast?

theorem lastCall?_concat (t : τ) (actions : List (τ × Action ι)) (step : τ × Action ι) :
    lastCall? t (actions ++ [step]) = (callOf? t step).or (lastCall? t actions) := by
  rw [lastCall?, List.filterMap_append, List.filterMap_cons, List.filterMap_nil, lastCall?]
  cases callOf? t step with
  | none => simp
  | some c => simp

theorem callOf?_of_ne {t t' : τ} (h : t' ≠ t) (action : Action ι) :
    callOf? t' (t, action) = none := by
  cases action with
  | call c => exact if_neg (Ne.symm h)
  | build => rfl
  | access now => rfl
  | move move => rfl

theorem mem_of_lastCall? {t : τ} {actions : List (τ × Action ι)} {c : Call ι}
    (h : lastCall? t actions = some c) : (t, .call c) ∈ actions := by
  obtain ⟨⟨t', action⟩, hmem, hcall⟩ := List.mem_filterMap.mp (List.mem_of_getLast? h)
  cases action with
  | call c' =>
      by_cases ht : t' = t
      · rw [callOf?, if_pos ht] at hcall
        rwa [← ht, ← Option.some.inj hcall]
      · rw [callOf?, if_neg ht] at hcall
        cases hcall
  | build => cases hcall
  | access now => cases hcall
  | move move => cases hcall

/-- A call for an index of some pairs, which perhaps is put in then. -/
def Call.building (pairs : List (Pair ι)) : Bool → Call ι
  | true => .rebuild pairs
  | false => .build pairs

namespace State

/-! ## The invariant -/

/-- An index is that of the start, or it was built of the pairs of a call. -/
def IsBuiltOf (initial : Index ι) (actions : List (τ × Action ι)) (index : Index ι) : Prop :=
  index = initial ∨ ∃ t pairs replaces, (t, .call (.building pairs replaces)) ∈ actions ∧
    index = .build pairs

/-- A thread leaves a write section with what its last call put in: the index with the number of the
call, or the one that was built of the pairs of the call. -/
def InstallsAsCalled (initial : Index ι) (actions : List (τ × Action ι)) (s : State τ ι)
    (log : List (Event τ)) : Prop :=
  ∀ before t install later, log = before ++ .installed t install :: later →
    ∃ earlier after mid, actions = earlier ++ (t, .move .leave) :: after ∧
      (start initial).run earlier = some (mid, before) ∧
      (lastCall? t earlier = some (.replace install.number) ∨ ∃ pairs,
        lastCall? t earlier = some (.rebuild pairs) ∧ s.Holds install.number (.build pairs))

/-- What the threads are about follows from the calls that they have begun. -/
structure Follows (initial : Index ι) (actions : List (τ × Action ι)) (s : State τ ι) : Prop where
  confined : s.Confined
  builds : ∀ t number rest replaces, s.task t = .builds number rest replaces → ∃ done,
    lastCall? t actions = some (.building (done ++ rest) replaces) ∧
      s.objects[number]? = some ⟨.build done, false⟩
  replaces : ∀ t number progress, s.task t = .replaces number progress →
    lastCall? t actions = some (.replace number) ∨ ∃ pairs,
      lastCall? t actions = some (.rebuild pairs) ∧ s.Holds number (.build pairs)
  complete : ∀ number index, s.Holds number index → IsBuiltOf initial actions index

theorem follows_start (initial : Index ι) : Follows initial [] (start initial : State τ ι) where
  confined := confined_start initial
  builds _ _ _ _ h := absurd h (by simp [start])
  replaces _ _ _ h := absurd h (by simp [start])
  complete number index h := by
    obtain ⟨object, hobject⟩ := List.getElem?_eq_some_iff.mp h
    obtain rfl : number = 0 := Nat.lt_one_iff.mp object
    exact Or.inl (congrArg Object.index hobject).symm

omit [DecidableEq τ] in
theorem IsBuiltOf.mono {initial index : Index ι} {actions : List (τ × Action ι)}
    (h : IsBuiltOf initial actions index) (step : τ × Action ι) :
    IsBuiltOf initial (actions ++ [step]) index := by
  rcases h with hfirst | ⟨t, pairs, replaces, hmem, hindex⟩
  · exact Or.inl hfirst
  · exact Or.inr ⟨t, pairs, replaces, List.mem_append_left _ hmem, hindex⟩

/-- A thread changes its task in a memory where the objects of the others stay what they are. -/
theorem Follows.setTask {initial : Index ι} {actions : List (τ × Action ι)} {s next : State τ ι}
    {t : τ} {action : Action ι} {task : Task ι} (h : Follows initial actions s)
    (hnext : (next.setTask t task).Confined ∧ Keeps s (next.setTask t task))
    (htask : next.task = s.task)
    (hothers : ∀ t' ≠ t, ∀ number rest replaces, s.task t' = .builds number rest replaces →
      next.objects[number]? = s.objects[number]?)
    (hbuilds : ∀ number rest replaces, task = .builds number rest replaces → ∃ done,
      lastCall? t (actions ++ [(t, action)]) = some (.building (done ++ rest) replaces) ∧
        next.objects[number]? = some ⟨.build done, false⟩)
    (hreplaces : ∀ number progress, task = .replaces number progress →
      lastCall? t (actions ++ [(t, action)]) = some (.replace number) ∨ ∃ pairs,
        lastCall? t (actions ++ [(t, action)]) = some (.rebuild pairs) ∧
          next.Holds number (.build pairs))
    (hcomplete : ∀ number index, next.Holds number index →
      s.Holds number index ∨ IsBuiltOf initial actions index) :
    Follows initial (actions ++ [(t, action)]) (next.setTask t task) := by
  have hlast : ∀ t' ≠ t, lastCall? t' (actions ++ [(t, action)]) = lastCall? t' actions := by
    intro t' ht
    rw [lastCall?_concat, callOf?_of_ne ht, Option.none_or]
  have hne : ∀ t' ≠ t, (next.setTask t task).task t' = s.task t' := by
    intro t' ht
    rw [setTask_of_ne _ ht, htask]
  refine ⟨hnext.1, ?_, ?_, ?_⟩
  · intro t' number rest replaces ht'
    by_cases ht : t' = t
    · subst ht
      rw [setTask_self] at ht'
      exact hbuilds number rest replaces ht'
    · have hold := (hne t' ht).symm.trans ht'
      obtain ⟨done, hcall, hobject⟩ := h.builds t' number rest replaces hold
      exact ⟨done, (hlast t' ht).trans hcall,
        (hothers t' ht number rest replaces hold).trans hobject⟩
  · intro t' number progress ht'
    by_cases ht : t' = t
    · subst ht
      rw [setTask_self] at ht'
      exact hreplaces number progress ht'
    · rw [hlast t' ht]
      rcases h.replaces t' number progress ((hne t' ht).symm.trans ht') with
        hcall | ⟨pairs, hcall, hholds⟩
      · exact Or.inl hcall
      · exact Or.inr ⟨pairs, hcall, hnext.2 number _ hholds⟩
  · intro number index hholds
    rcases hcomplete number index hholds with hold | hbuilt
    · exact (h.complete number index hold).mono _
    · exact hbuilt.mono _

/-- A step that changes no object, and no task to one with an index that it was not about. -/
theorem Follows.keep {initial : Index ι} {actions : List (τ × Action ι)} {s next : State τ ι}
    {t : τ} {action : Action ι} {task : Task ι} (h : Follows initial actions s)
    (hnext : (next.setTask t task).Confined ∧ Keeps s (next.setTask t task))
    (htask : next.task = s.task) (hobjects : next.objects = s.objects)
    (hcall : callOf? t (t, action) = none)
    (hbuilds : ∀ number rest replaces, task = .builds number rest replaces → s.task t = task)
    (hreplaces : ∀ number progress, task = .replaces number progress →
      ∃ progress', s.task t = .replaces number progress') :
    Follows initial (actions ++ [(t, action)]) (next.setTask t task) := by
  have hlast : lastCall? t (actions ++ [(t, action)]) = lastCall? t actions := by
    rw [lastCall?_concat, hcall, Option.none_or]
  refine h.setTask hnext htask (fun _ _ _ _ _ _ => by rw [hobjects]) ?_ ?_ ?_
  · intro number rest replaces hself
    obtain ⟨done, hlast', hobject⟩ :=
      h.builds t number rest replaces ((hbuilds number rest replaces hself).trans hself)
    exact ⟨done, hlast.trans hlast', by rw [hobjects, hobject]⟩
  · intro number progress hself
    obtain ⟨progress', hold⟩ := hreplaces number progress hself
    rcases h.replaces t number progress' hold with hlast' | ⟨pairs, hlast', hholds⟩
    · exact Or.inl (hlast.trans hlast')
    · exact Or.inr ⟨pairs, hlast.trans hlast', by rwa [Holds, hobjects]⟩
  · intro number index hholds
    rw [Holds, hobjects] at hholds
    exact Or.inl hholds

/-! ## Steps -/

theorem lastCall?_call (t : τ) (actions : List (τ × Action ι)) (c : Call ι) :
    lastCall? t (actions ++ [(t, .call c)]) = some c := by
  rw [lastCall?_concat, callOf?, if_pos rfl, Option.some_or]

/-- A new index is empty: none of the pairs is inserted yet. -/
theorem Follows.allocate {initial : Index ι} {actions : List (τ × Action ι)} {s : State τ ι}
    (h : Follows initial actions s) (t : τ) (pairs : List (Pair ι)) (replaces : Bool) :
    Follows initial (actions ++ [(t, .call (.building pairs replaces))])
      (s.allocate t pairs replaces) := by
  have hold : ∀ {number : Nat}, number < s.objects.length →
      (s.allocate t pairs replaces).objects[number]? = s.objects[number]? :=
    fun hlt => objects_allocate hlt t pairs replaces
  refine h.setTask (h.confined.allocate t pairs replaces) rfl ?_ ?_ nofun ?_
  · intro t' _ number rest replaces' ht'
    obtain ⟨done, -, hobject⟩ := h.builds t' number rest replaces' ht'
    exact hold (List.getElem?_eq_some_iff.mp hobject).1
  · intro number rest replaces' hself
    obtain ⟨rfl, rfl, rfl⟩ := Task.builds.inj hself
    exact ⟨[], lastCall?_call t actions _, List.getElem?_concat_length⟩
  · intro number index hholds
    by_cases hlt : number < s.objects.length
    · exact Or.inl ((hold hlt).symm.trans hholds)
    · -- The new object is not complete.
      have hnumber := (List.getElem?_eq_some_iff.mp hholds).1
      rw [List.length_append, List.length_singleton] at hnumber
      obtain rfl : number = s.objects.length := by omega
      cases List.getElem?_concat_length.symm.trans hholds

theorem Follows.call {initial : Index ι} {actions : List (τ × Action ι)} {s s' : State τ ι} {t : τ}
    {c : Call ι} (h : Follows initial actions s) (hcall : s.call t c = some s') :
    Follows initial (actions ++ [(t, .call c)]) s' := by
  have hnext := h.confined.call hcall
  unfold State.call at hcall
  split at hcall
  · obtain rfl := Option.some.inj hcall
    exact h.setTask hnext rfl (fun _ _ _ _ _ _ => rfl) nofun nofun fun _ _ hholds => Or.inl hholds
  · split at hcall
    · obtain rfl := Option.some.inj hcall
      refine h.setTask hnext rfl (fun _ _ _ _ _ _ => rfl) nofun ?_ fun _ _ hholds => Or.inl hholds
      intro number progress hself
      obtain ⟨rfl, -⟩ := Task.replaces.inj hself
      exact Or.inl (lastCall?_call t actions _)
    · cases hcall
  · obtain rfl := Option.some.inj hcall
    exact h.allocate t _ false
  · obtain rfl := Option.some.inj hcall
    exact h.allocate t _ true
  · cases hcall

theorem build_concat (done : List (Pair ι)) (pair : Pair ι) :
    Index.build (done ++ [pair]) = (Index.build done).insert (.ofText pair.1) pair.2 := by
  rw [Index.build, List.map_append, Index.ofKeys, List.foldl_append]
  rfl

theorem Follows.build {initial : Index ι} {actions : List (τ × Action ι)} {s s' : State τ ι} {t : τ}
    (h : Follows initial actions s) (hbuild : s.build t = some s') :
    Follows initial (actions ++ [(t, .build)]) s' := by
  have hnext := h.confined.build hbuild
  have hlast : lastCall? t (actions ++ [(t, .build)]) = lastCall? t actions := by
    rw [lastCall?_concat]
    rfl
  have hapart : ∀ {number rest replaces}, s.task t = .builds number rest replaces →
      ∀ t' ≠ t, ∀ number' rest' replaces', s.task t' = .builds number' rest' replaces' →
        number' ≠ number := by
    rintro number rest replaces ht t' hne number' rest' replaces' ht' rfl
    exact hne (h.confined.alone t t' _ _ _ _ _ ht ht')
  unfold State.build at hbuild
  split at hbuild
  · next number pair rest replaces ht =>
      obtain rfl := Option.some.inj hbuild
      obtain ⟨done, hcall, hobject⟩ := h.builds t number (pair :: rest) replaces ht
      refine h.setTask hnext rfl ?_ ?_ nofun ?_
      · exact fun t' hne number' rest' replaces' ht' =>
          objects_modify_of_ne s (hapart ht t' hne number' rest' replaces' ht') _
      · intro number' rest' replaces' hself
        obtain ⟨rfl, rfl, rfl⟩ := Task.builds.inj hself
        refine ⟨done ++ [pair], ?_, ?_⟩
        · rw [hlast, hcall, List.append_assoc]
          rfl
        · rw [objects_modify_self hobject, build_concat]
      · intro number' index hholds
        by_cases hnumber : number' = number
        · subst hnumber
          cases (objects_modify_self hobject _).symm.trans hholds
        · exact Or.inl ((objects_modify_of_ne s hnumber _).symm.trans hholds)
  · next number replaces ht =>
      obtain rfl := Option.some.inj hbuild
      obtain ⟨done, hcall, hobject⟩ := h.builds t number [] replaces ht
      rw [List.append_nil] at hcall
      refine h.setTask hnext rfl ?_ ?_ ?_ ?_
      · exact fun t' hne number' rest' replaces' ht' =>
          objects_modify_of_ne s (hapart ht t' hne number' rest' replaces' ht') _
      · intro number' rest' replaces' hself
        cases replaces <;> cases hself
      · intro number' progress hself
        cases replaces with
        | false => cases hself
        | true =>
            obtain ⟨rfl, -⟩ := Task.replaces.inj hself
            exact Or.inr ⟨done, hlast.trans hcall, objects_modify_self hobject _⟩
      · intro number' index hholds
        by_cases hnumber : number' = number
        · subst hnumber
          have hobjects := (objects_modify_self hobject _).symm.trans hholds
          have hindex := congrArg Object.index (Option.some.inj hobjects)
          exact Or.inr (Or.inr ⟨t, done, replaces, mem_of_lastCall? hcall, hindex.symm⟩)
        · exact Or.inl ((objects_modify_of_ne s hnumber _).symm.trans hholds)
  · cases hbuild

theorem Follows.access {initial : Index ι} {actions : List (τ × Action ι)} {s s' : State τ ι}
    {t : τ} {now : String} (h : Follows initial actions s) (haccess : s.access t now = some s') :
    Follows initial (actions ++ [(t, .access now)]) s' := by
  have hnext := h.confined.access haccess
  unfold State.access at haccess
  split at haccess
  · obtain rfl := Option.some.inj haccess
    exact h.keep hnext rfl rfl rfl nofun nofun
  · next number progress _ ht =>
      obtain ⟨⟨fields, progress'⟩, _, rfl⟩ := Option.map_eq_some_iff.mp haccess
      refine h.keep hnext rfl rfl rfl nofun fun number' progress'' hself => ?_
      obtain ⟨rfl, -⟩ := Task.replaces.inj hself
      exact ⟨progress, ht⟩
  · cases haccess

theorem Follows.move {initial : Index ι} {actions : List (τ × Action ι)} {s s' : State τ ι} {t : τ}
    {move : ReadWriteLock.Move} {seen : List (Event τ)} (h : Follows initial actions s)
    (hmove : s.move t move = some (s', seen)) :
    Follows initial (actions ++ [(t, .move move)]) s' := by
  have hnext := h.confined.move hmove
  unfold State.move at hmove
  split at hmove
  · obtain ⟨threads, _, heq⟩ := Option.map_eq_some_iff.mp hmove
    obtain ⟨rfl, rfl⟩ := Prod.mk.inj heq
    cases move with
    | arrive mode => exact h.keep hnext rfl rfl rfl (fun _ _ _ _ => rfl) fun _ p hself => ⟨p, hself⟩
    | wake => exact h.keep hnext rfl rfl rfl (fun _ _ _ _ => rfl) fun _ p hself => ⟨p, hself⟩
    | abort => exact h.keep hnext rfl rfl rfl nofun nofun
    | leave => exact h.keep hnext rfl rfl rfl nofun nofun
  · cases hmove

theorem Follows.step {initial : Index ι} {actions : List (τ × Action ι)} {s s' : State τ ι} {t : τ}
    {action : Action ι} {seen : List (Event τ)} (h : Follows initial actions s)
    (hstep : s.step t action = some (s', seen)) :
    Follows initial (actions ++ [(t, action)]) s' := by
  cases action with
  | call c => exact h.call (eq_of_map_silent hstep).1
  | build => exact h.build (eq_of_map_silent hstep).1
  | access now => exact h.access (eq_of_map_silent hstep).1
  | move move => exact h.move hstep

/-! ## Runs -/

theorem exists_of_run_concat {s last : State τ ι} {actions : List (τ × Action ι)} {t : τ}
    {action : Action ι} {log : List (Event τ)}
    (h : s.run (actions ++ [(t, action)]) = some (last, log)) :
    ∃ mid before seen, s.run actions = some (mid, before) ∧
      mid.step t action = some (last, seen) ∧ log = before ++ seen := by
  induction actions generalizing s log with
  | nil =>
      obtain ⟨⟨next, seen⟩, hnext, hrest⟩ := Option.bind_eq_some_iff.mp h
      obtain ⟨rfl, rfl⟩ := Prod.mk.inj (Option.some.inj hrest)
      exact ⟨s, [], seen, rfl, hnext, List.append_nil seen⟩
  | cons first rest ih =>
      obtain ⟨⟨next, seen⟩, hnext, hrest⟩ := Option.bind_eq_some_iff.mp h
      obtain ⟨⟨last', more⟩, hlast, heq⟩ := Option.map_eq_some_iff.mp hrest
      obtain ⟨rfl, rfl⟩ := Prod.mk.inj heq
      obtain ⟨mid, before, later, hmid, hstep, rfl⟩ := ih hlast
      refine ⟨mid, seen ++ before, later, ?_, hstep, (List.append_assoc seen before later).symm⟩
      rw [run, hnext, Option.bind_some]
      show (next.run rest).map _ = _
      rw [hmid]
      rfl

/-- Where a write section was completed, that is one of the events before a step, or all that is seen
of the step. -/
theorem installed_of_append_step {s s' : State τ ι} {t t' : τ} {action : Action ι}
    {log seen before later : List (Event τ)} {install : Install}
    (hstep : s.step t action = some (s', seen))
    (hlog : log ++ seen = before ++ .installed t' install :: later) :
    (∃ more, log = before ++ .installed t' install :: more) ∨
      before = log ∧ .installed t' install ∈ seen := by
  rcases List.append_eq_append_iff.mp hlog with ⟨more, rfl, hseen⟩ | ⟨more, rfl, hmore⟩
  · have hmem : .installed t' install ∈ seen := by
      rw [hseen]
      exact List.mem_append_right more List.mem_cons_self
    obtain ⟨-, -, hone, -⟩ := installed_step hstep hmem
    rw [hone] at hseen
    cases more with
    | nil => exact Or.inr ⟨List.append_nil log, hmem⟩
    | cons e more => cases (List.append_eq_nil_iff.mp (List.cons.inj hseen).2.symm).2
  · cases more with
    | nil =>
        rw [List.nil_append] at hmore
        rw [List.append_nil, ← hmore]
        exact Or.inr ⟨rfl, List.mem_cons_self⟩
    | cons e more =>
        obtain ⟨rfl, -⟩ := List.cons.inj hmore
        exact Or.inl ⟨more, rfl⟩

theorem run_follows {initial : Index ι} {s : State τ ι} {actions : List (τ × Action ι)}
    {log : List (Event τ)} (h : (start initial).run actions = some (s, log)) :
    Follows initial actions s ∧ InstallsAsCalled initial actions s log := by
  induction actions using List.reverseRecOn generalizing s log with
  | nil =>
      obtain ⟨rfl, rfl⟩ := Prod.mk.inj (Option.some.inj h)
      exact ⟨follows_start initial, fun before t install later hlog => by simp at hlog⟩
  | append_singleton actions step ih =>
      obtain ⟨t, action⟩ := step
      obtain ⟨mid, log₀, seen, hmid, hstep, rfl⟩ := exists_of_run_concat h
      obtain ⟨hfollows, hcalled⟩ := ih hmid
      have hkeeps : Keeps mid s := (hfollows.confined.step hstep).2
      refine ⟨hfollows.step hstep, fun before t' install later hlog => ?_⟩
      rcases installed_of_append_step hstep hlog with ⟨more, hlog₀⟩ | ⟨rfl, hmem⟩
      · obtain ⟨earlier, after, mid', rfl, hearlier, hcall⟩ := hcalled before t' install more hlog₀
        refine ⟨earlier, after ++ [(t, action)], mid', by simp, hearlier, ?_⟩
        rcases hcall with hcall | ⟨pairs, hcall, hholds⟩
        · exact Or.inl hcall
        · exact Or.inr ⟨pairs, hcall, hkeeps _ _ hholds⟩
      · obtain ⟨rfl, rfl, -, progress, htask⟩ := installed_step hstep hmem
        refine ⟨actions, [], mid, rfl, hmid, ?_⟩
        rcases hfollows.replaces t' _ progress htask with hcall | ⟨pairs, hcall, hholds⟩
        · exact Or.inl hcall
        · exact Or.inr ⟨pairs, hcall, hkeeps _ _ hholds⟩

end State
end SignatureSearch.Signature.SharedCache
