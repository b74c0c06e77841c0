/-
# `Proofs.Database.Succession` — replacements one after the other, in any store

A store may hold anything before the first replacement: also functions under
identifiers that are still to be handed out, and a counter that is none.  All
that is asked of it is that its counter `IsSound`, which means that it is no
negative number and no floating point number.  Then a replacement does nothing
at all, or it takes natural numbers in a row (`Reserved`) and commits some of
its batches; it has committed all of them if it returns (`replaceFunctions_course`).

Two packages are kept apart by numbers.  The documents of one are all `Below`
a number, and the counter is `Beyond` it: then a replacement for the other one
leaves these documents alone, although it may write over anything else
(`Course.agree`).
-/
import SignatureSearch.Proofs.Database.Replacement
import SignatureSearch.Proofs.Store.Undisturbed

namespace SignatureSearch.Database

open Store (Write Failure Client perform)

variable {settings : Settings} {store store' reserved : Store} {packageId : String}
  {drafts : List FunctionDraft} {records : List FunctionRecord} {n m : Nat}

/-! ## The counter -/

/-- The next identifier that is handed out, by the document of the counter; none if that is nothing
from which natural numbers can be handed out. -/
def nextId? : Option Fields → Option Nat
  | none => some 0
  | some fields =>
    match Json.field? fields "next" with
    | some (.int n) => n.toNat?
    | some (.bool b) => some b.toNat
    | _ => none

/-- A counter that is no negative number, and no floating point number.

A floating point counter without a fraction is read like an integer, and adding to it is exact below
`2 ^ 53`.  But it stays a floating point number, and whether it stays below depends on how many
functions are found in the whole run: no condition on the document alone is kept by every step.
What is written here is an integer (`isSound_next`). -/
def IsSound (counter : Option Fields) : Prop :=
  ∀ fields, counter = some fields →
    match Json.field? fields "next" with
    | some (.int n) => 0 ≤ n
    | some (.float _) => False
    | _ => True

theorem isSound_next (n : Nat) : IsSound (some [("next", .int n)]) := by
  intro fields h
  obtain rfl := Option.some.inj h
  exact Int.natCast_nonneg n

theorem nextId?_next (n : Nat) : nextId? (some [("next", .int n)]) = some n := rfl

/-- Identifiers are handed out from a truth value as from the number that it counts as. -/
theorem number_bool (b : Bool) (drafts : List FunctionDraft) :
    number (.bool b) drafts = number (.int b.toNat) drafts := by
  cases b <;> rfl

/-- What a reservation takes from a counter from which natural numbers are handed out. -/
theorem advance_of_nextId? {counter : Option Fields} (h : nextId? counter = some n) (count : Nat) :
    ∃ first, advance count counter = .ok (first, [("next", .int (n + count : Nat))]) ∧
      ∀ drafts, number first drafts = .ok (numbered n drafts) := by
  cases counter with
  | none =>
      obtain rfl := Option.some.inj h
      exact ⟨.int 0, rfl, number_eq 0⟩
  | some fields =>
      rw [nextId?] at h
      cases hnext : Json.field? fields "next" with
      | none => simp [hnext] at h
      | some v =>
          simp only [hnext] at h
          cases v with
          | int k =>
              obtain rfl : k = n := Int.mem_toNat?.mp h
              refine ⟨.int n, ?_, number_eq n⟩
              simp [advance, add, hnext, pure, Except.pure, bind, Except.bind]
          | bool b =>
              obtain rfl := Option.some.inj h
              refine ⟨.bool b, ?_, ?_⟩
              · cases b <;> simp [advance, add, hnext, pure, Except.pure, bind, Except.bind]
              · intro drafts
                rw [number_bool, number_eq]
          | null => cases h
          | float x => cases h
          | str s => cases h
          | arr items => cases h
          | obj fields => cases h

theorem exists_nextId? {counter : Option Fields} (h : IsSound counter) {count : Int}
    {reservation : Json × Fields} (hadvance : advance count counter = .ok reservation) :
    ∃ n, nextId? counter = some n := by
  cases counter with
  | none => exact ⟨0, rfl⟩
  | some fields =>
      have hsound := h fields rfl
      rw [nextId?]
      cases hnext : Json.field? fields "next" with
      | none => simp [advance, hnext, throw, throwThe, MonadExceptOf.throw, bind, Except.bind]
          at hadvance
      | some v =>
          simp only [hnext] at hsound ⊢
          cases v with
          | int k => exact ⟨k.toNat, Int.mem_toNat?.mpr (Int.toNat_of_nonneg hsound).symm⟩
          | bool b => exact ⟨b.toNat, rfl⟩
          | float x => exact hsound.elim
          | null => simp [advance, add, hnext, pure, Except.pure, bind, Except.bind] at hadvance
          | str s => simp [advance, add, hnext, pure, Except.pure, bind, Except.bind] at hadvance
          | arr items =>
              simp [advance, add, hnext, pure, Except.pure, bind, Except.bind] at hadvance
          | obj fields =>
              simp [advance, add, hnext, pure, Except.pure, bind, Except.bind] at hadvance

/-! ## Reservations -/

/-- A store `reserved` in which drafts have taken the numbers from `n` on.  Without drafts there is
nothing to take. -/
inductive Reserved (settings : Settings) (drafts : List FunctionDraft) (store : Store) :
    Nat → Store → Prop where
  | nothing : drafts = [] → Reserved settings drafts store 0 store
  | row {n : Nat} : nextId? (store.get? (counterKey settings)) = some n →
      Reserved settings drafts store n
        (store.put (counterKey settings) [("next", .int (n + drafts.length : Nat))])

/-- All identifiers that are handed out from now on are at least `n`. -/
def Beyond (settings : Settings) (store : Store) (n : Nat) : Prop :=
  ∀ m, nextId? (store.get? (counterKey settings)) = some m → n ≤ m

theorem beyond_zero (settings : Settings) (store : Store) : Beyond settings store 0 :=
  fun m _ => Nat.zero_le m

theorem Beyond.congr (h : Beyond settings store n)
    (hsame : store'.get? (counterKey settings) = store.get? (counterKey settings)) :
    Beyond settings store' n := by
  rwa [Beyond, hsame]

namespace Reserved

theorem get?_of_ne (h : Reserved settings drafts store n reserved) {key : DocumentKey}
    (hkey : key ≠ counterKey settings) : reserved.get? key = store.get? key := by
  cases h with
  | nothing _ => rfl
  | row _ => exact store.get?_put_of_ne hkey _

theorem sound (h : Reserved settings drafts store n reserved)
    (hsound : IsSound (store.get? (counterKey settings))) :
    IsSound (reserved.get? (counterKey settings)) := by
  cases h with
  | nothing _ => exact hsound
  | row _ =>
      rw [store.get?_put_self]
      exact isSound_next _

/-- What is handed out later is above what was taken. -/
theorem beyond_length (h : Reserved settings drafts store n reserved) :
    Beyond settings reserved (n + drafts.length) := by
  cases h with
  | nothing hnil =>
      rw [hnil]
      exact beyond_zero settings store
  | row _ =>
      intro m hm
      rw [store.get?_put_self, nextId?_next] at hm
      exact (Option.some.inj hm).le

theorem beyond (h : Reserved settings drafts store n reserved) (hbeyond : Beyond settings store m) :
    Beyond settings reserved m := by
  cases h with
  | nothing _ => exact hbeyond
  | row hn =>
      intro k hk
      rw [store.get?_put_self, nextId?_next] at hk
      have hle := hbeyond _ hn
      have hsum := Option.some.inj hk
      omega

/-- The numbers that were taken are not below those that were to be handed out. -/
theorem le_of_mem (h : Reserved settings drafts store n reserved)
    (hbeyond : Beyond settings store m) {r : FunctionRecord} (hr : r ∈ numbered n drafts) :
    m ≤ r.id := by
  cases h with
  | nothing hnil =>
      subst hnil
      exact absurd hr List.not_mem_nil
  | row hn => exact (hbeyond _ hn).trans (mem_numbered hr).1

theorem nextId?_isSome (h : Reserved settings drafts store n reserved) :
    (nextId? (reserved.get? (counterKey settings))).isSome =
      (nextId? (store.get? (counterKey settings))).isSome := by
  cases h with
  | nothing _ => rfl
  | row hn => rw [store.get?_put_self, nextId?_next, hn, Option.isSome_some, Option.isSome_some]

end Reserved

theorem record_reserved {client : Client}
    (hsound : IsSound (client.store.get? (counterKey settings))) :
    match perform (record settings drafts) client with
    | (.ok records, after) =>
        ∃ n, Reserved settings drafts client.store n after.store ∧ records = numbered n drafts
    | (.error _, after) => after.store = client.store := by
  have hrecord := @perform_record settings drafts client
  generalize perform (record settings drafts) client = outcome at hrecord
  obtain ⟨failure | records, after⟩ := outcome
  · rcases hrecord.2 with hstore | ⟨first, fields, hadvance, hnumber, -⟩
    · exact hstore
    · obtain ⟨n, hn⟩ := exists_nextId? hsound hadvance
      obtain ⟨first', hfirst, hrow⟩ := advance_of_nextId? hn drafts.length
      obtain ⟨rfl, -⟩ := Prod.mk.inj (Except.ok.inj (hfirst.symm.trans hadvance))
      exact absurd ((hrow drafts).symm.trans hnumber) nofun
  · rcases hrecord with ⟨rfl, rfl, rfl⟩ | ⟨-, first, fields, hadvance, hnumber, hstore⟩
    · exact ⟨0, .nothing rfl, rfl⟩
    · obtain ⟨n, hn⟩ := exists_nextId? hsound hadvance
      obtain ⟨first', hfirst, hrow⟩ := advance_of_nextId? hn drafts.length
      obtain ⟨rfl, rfl⟩ := Prod.mk.inj (Except.ok.inj (hfirst.symm.trans hadvance))
      refine ⟨n, ?_, (Except.ok.inj ((hrow drafts).symm.trans hnumber)).symm⟩
      rw [hstore]
      exact .row hn

/-! ## The course of a replacement -/

/-- The first batches of a replacement, one after the other. -/
def firstWrites (settings : Settings) (store : Store) (packageId : String)
    (records : List FunctionRecord) (k : Nat) : List Write :=
  ((allBatches settings (idsOf settings store packageId) records).take k).flatten

/-- What a replacement can come to: nothing, or some of its commits after its reservation. -/
inductive Course (settings : Settings) (packageId : String) (drafts : List FunctionDraft)
    (store : Store) : Store → Prop where
  | nothing : Course settings packageId drafts store store
  | batches {n : Nat} {reserved : Store} (k : Nat) : Reserved settings drafts store n reserved →
      Course settings packageId drafts store
        (reserved.commit (firstWrites settings store packageId (numbered n drafts) k))

theorem replaceFunctions_commits {client after : Client}
    (hsound : IsSound (client.store.get? (counterKey settings)))
    (h : perform (replaceFunctions settings packageId drafts) client = (.ok records, after)) :
    ∃ n reserved, Reserved settings drafts client.store n reserved ∧ records = numbered n drafts ∧
      after.store = reserved.commit
        (allBatches settings (idsOf settings client.store packageId) records).flatten := by
  obtain ⟨found, first, second, hquery, hrecord, hcommit⟩ := replaceFunctions_ok h
  obtain ⟨rfl, rfl⟩ := queryWith_ok hquery
  have hreserved := @record_reserved settings drafts (client.note (.stream (functions settings)))
    hsound
  rw [hrecord] at hreserved
  obtain ⟨n, hn, rfl⟩ := hreserved
  exact ⟨n, second.store, hn, rfl, (commitBatches_ok hcommit).1⟩

theorem replaceFunctions_course {client : Client}
    (hsound : IsSound (client.store.get? (counterKey settings))) :
    Course settings packageId drafts client.store
      (perform (replaceFunctions settings packageId drafts) client).2.store := by
  generalize houtcome : perform (replaceFunctions settings packageId drafts) client = outcome
  obtain ⟨failure | records, after⟩ := outcome
  · have hreserved := @record_reserved settings drafts
      (client.note (.stream (functions settings))) hsound
    rcases replaceFunctions_error.mp houtcome with
      hquery | ⟨found, first, hquery, hrecord | ⟨records, second, hrecord, hcommit⟩⟩
    · rw [queryWith_error hquery]
      exact .nothing
    · obtain ⟨-, rfl⟩ := queryWith_ok hquery
      rw [hrecord] at hreserved
      show Course settings packageId drafts client.store after.store
      rw [show after.store = client.store from hreserved]
      exact .nothing
    · obtain ⟨rfl, rfl⟩ := queryWith_ok hquery
      rw [hrecord] at hreserved
      obtain ⟨n, hn, rfl⟩ := hreserved
      obtain ⟨k, batch, mid, -, htake, hfail⟩ := commitBatches_error.mp hcommit
      rw [commitBatch_error hfail, (commitBatches_ok htake).1]
      exact .batches k hn
  · obtain ⟨n, reserved, hn, rfl, hstore⟩ := replaceFunctions_commits hsound houtcome
    have hall : after.store = reserved.commit (firstWrites settings client.store packageId
        (numbered n drafts) (allBatches settings (idsOf settings client.store packageId)
          (numbered n drafts)).length) := by
      rw [hstore, firstWrites, List.take_length]
    rw [hall]
    exact .batches _ hn

theorem mem_firstWrites {w : Write} {k : Nat}
    (h : w ∈ firstWrites settings store packageId records k) :
    w ∈ (allBatches settings (idsOf settings store packageId) records).flatten :=
  ((List.take_sublist k _).flatten).subset h

theorem get?_commit_functions {writes : List Write}
    (hwrites : ∀ w ∈ writes, w.key.collection = functions settings) {key : DocumentKey}
    (hkey : key.collection ≠ functions settings) :
    (reserved.commit writes).get? key = reserved.get? key := by
  refine Store.get?_commit_of_notMem fun hmem => ?_
  obtain ⟨w, hw, rfl⟩ := List.mem_map.mp hmem
  exact hkey (hwrites w hw)

/-! ## Numbers that keep packages apart -/

/-- All documents of a package have identifiers below `n`. -/
def Below (settings : Settings) (store : Store) (packageId : String) (n : Nat) : Prop :=
  ∀ key fields, store.get? key = some fields → IsOf settings packageId key fields →
    ∃ m < n, key = functionKey settings m

theorem Below.of_agree (h : Below settings store packageId n)
    (hagree : Agree settings packageId store store') : Below settings store' packageId n := by
  intro key fields hfields hof
  exact h key fields ((hagree key fields hof).mpr hfields) hof

/-- Functions that were numbered in a row are below the number after them. -/
theorem Holds.below (h : Holds settings store packageId (numbered n drafts)) :
    Below settings store packageId (n + drafts.length) := by
  intro key fields hfields hof
  obtain ⟨r, hr, hkey, -⟩ := (h key fields).mp ⟨hfields, hof⟩
  exact ⟨r.id, (mem_numbered hr).2.1, hkey⟩

/-- Writes that are not about documents of a package, before or afterwards. -/
theorem Agree.of_commit_apart {writes : List Write}
    (hsets : ∀ key fields, .set key fields ∈ writes → ¬ IsOf settings packageId key fields)
    (hwrites : ∀ w ∈ writes, ∀ fields, store.get? w.key = some fields →
      ¬ IsOf settings packageId w.key fields) :
    Agree settings packageId store (store.commit writes) := by
  intro key fields hof
  constructor
  · intro hfields
    rw [Store.get?_commit_of_notMem ?_, hfields]
    intro hkey
    obtain ⟨w, hw, rfl⟩ := List.mem_map.mp hkey
    exact hwrites w hw fields hfields hof
  · intro hfields
    rcases Store.get?_commit_eq_some hfields with hset | ⟨hold, -⟩
    · exact absurd hof (hsets key fields hset)
    · exact hold

/-- Whatever a replacement comes to, another package keeps its documents if they are below what is
handed out. -/
theorem Course.agree (h : Course settings packageId drafts store store')
    (howned : ∀ draft ∈ drafts, draft.packageId = packageId) {other : String}
    (hne : other ≠ packageId) (hbelow : Below settings store other m)
    (hbeyond : Beyond settings store m) : Agree settings other store store' := by
  cases h with
  | nothing => exact .refl settings other store
  | @batches n reserved k hreserved =>
      have hsame : Agree settings other store reserved := by
        intro key fields hof
        rw [hreserved.get?_of_ne (ne_counterKey hof.1)]
      intro key fields hof
      refine (hsame key fields hof).trans (Agree.of_commit_apart ?_ ?_ key fields hof)
      · intro key fields hset hof
        rcases mem_allBatches (mem_firstWrites hset) with ⟨r, hr, heq⟩ | ⟨id, -, heq⟩
        · obtain ⟨rfl, rfl⟩ := Write.set.inj heq
          have hid := hof.unique (isOf_toFields settings r)
          exact hne (hid.trans (packageId_of_mem_numbered howned hr))
        · exact absurd heq nofun
      · intro w hw fields hfields hof
        have hold := (hsame w.key fields hof).mpr hfields
        rcases mem_allBatches (mem_firstWrites hw) with ⟨r, hr, rfl⟩ | ⟨id, hid, rfl⟩
        · -- The number is a new one, and so not one of the other package.
          obtain ⟨k, hk, hkey⟩ := hbelow _ _ hold hof
          have hnew := hreserved.le_of_mem hbeyond hr
          have hid := functionKey_inj.mp hkey
          omega
        · obtain ⟨fields', hfields', hpackage⟩ := mem_idsOf.mp hid
          obtain rfl := Option.some.inj (hold.symm.trans hfields')
          exact hne (hof.unique ⟨rfl, hpackage⟩)

/-! ## One replacement after the other -/

/-- The store `after` comes from `store` by replacements for the packages `ids`: the counter has not
gone back, and the documents of all other packages are there that are below it. -/
structure Follows (settings : Settings) (ids : List String) (store after : Store) : Prop where
  sound : IsSound (after.get? (counterKey settings))
  beyond : ∀ {n}, Beyond settings store n → Beyond settings after n
  isSome_eq : (nextId? (after.get? (counterKey settings))).isSome =
    (nextId? (store.get? (counterKey settings))).isSome
  agree : ∀ {id n}, id ∉ ids → Below settings store id n → Beyond settings store n →
    Agree settings id store after

namespace Follows

theorem trans {ids ids' : List String} {a b c : Store} (hab : Follows settings ids a b)
    (hbc : Follows settings ids' b c) : Follows settings (ids ++ ids') a c where
  sound := hbc.sound
  beyond h := hbc.beyond (hab.beyond h)
  isSome_eq := hbc.isSome_eq.trans hab.isSome_eq
  agree := by
    intro id n hid hbelow hbeyond key fields hof
    rw [List.mem_append, not_or] at hid
    have hfirst := hab.agree hid.1 hbelow hbeyond
    have hrest := hbc.agree hid.2 (hbelow.of_agree hfirst) (hab.beyond hbeyond)
    exact (hfirst key fields hof).trans (hrest key fields hof)

theorem mono {ids ids' : List String} (h : Follows settings ids store store') (hids : ids ⊆ ids') :
    Follows settings ids' store store' :=
  ⟨h.sound, h.beyond, h.isSome_eq, fun hid => h.agree fun hmem => hid (hids hmem)⟩

/-- Writing records of packages touches neither functions nor the counter. -/
theorem of_within {before after : Client}
    (hsound : IsSound (before.store.get? (counterKey settings)))
    (h : Store.Within (packages settings) before after) :
    Follows settings [] before.store after.store := by
  have hcounter : after.store.get? (counterKey settings) =
      before.store.get? (counterKey settings) := h _ (packages_ne_counters settings).symm
  refine ⟨hcounter ▸ hsound, fun hbeyond => hbeyond.congr hcounter, by rw [hcounter], ?_⟩
  intro id n _ _ _ key fields hof
  rw [h key (hof.1 ▸ (packages_ne_functions settings).symm)]

end Follows

theorem Course.follows (h : Course settings packageId drafts store store')
    (hsound : IsSound (store.get? (counterKey settings)))
    (howned : ∀ draft ∈ drafts, draft.packageId = packageId) :
    Follows settings [packageId] store store' := by
  have hagree : ∀ {id n}, id ∉ [packageId] → Below settings store id n →
      Beyond settings store n → Agree settings id store store' :=
    fun hid => h.agree howned (List.ne_of_not_mem_cons hid)
  cases h with
  | nothing => exact ⟨hsound, id, rfl, hagree⟩
  | @batches n reserved k hreserved =>
      have hcounter : (reserved.commit (firstWrites settings store packageId (numbered n drafts)
          k)).get? (counterKey settings) = reserved.get? (counterKey settings) :=
        get?_commit_functions (fun w hw => collection_of_mem_allBatches (mem_firstWrites hw))
          (functions_ne_counters settings).symm
      refine ⟨hcounter ▸ hreserved.sound hsound, ?_, ?_, hagree⟩
      · exact fun hbeyond => (hreserved.beyond hbeyond).congr hcounter
      · rw [hcounter, hreserved.nextId?_isSome]

/-- A replacement that returns leaves the new functions, with numbers in a row, and what is handed
out later is above them. -/
theorem replaceFunctions_holds {client after : Client}
    (hsound : IsSound (client.store.get? (counterKey settings)))
    (howned : ∀ draft ∈ drafts, draft.packageId = packageId)
    (h : perform (replaceFunctions settings packageId drafts) client = (.ok records, after)) :
    ∃ n, records = numbered n drafts ∧ Holds settings after.store packageId records ∧
      Beyond settings after.store (n + drafts.length) ∧
      (drafts = [] ∨ (nextId? (client.store.get? (counterKey settings))).isSome) := by
  obtain ⟨n, reserved, hreserved, rfl, hstore⟩ := replaceFunctions_commits hsound h
  have hcounter : after.store.get? (counterKey settings) =
      reserved.get? (counterKey settings) := by
    rw [hstore]
    exact get?_commit_functions (fun w => collection_of_mem_allBatches)
      (functions_ne_counters settings).symm
  refine ⟨n, rfl, ?_, hreserved.beyond_length.congr hcounter, ?_⟩
  · rw [hstore, flatten_allBatches]
    refine holds_replaced (fun key fields hfields hof => ?_)
      (fun r => packageId_of_mem_numbered howned) (nodup_numbered n drafts)
    rw [hreserved.get?_of_ne (ne_counterKey hof.1)] at hfields
    obtain ⟨collection, id⟩ := key
    obtain rfl : collection = functions settings := hof.1
    exact mem_idsOf.mpr ⟨fields, hfields, hof.2⟩
  · cases hreserved with
    | nothing hnil => exact Or.inl hnil
    | row hn => exact Or.inr (by rw [hn, Option.isSome_some])

/-! ## Replacements to which nothing is refused -/

section Undisturbed

open Store (Succeeds Keeps Quiet)

variable {client : Client}

theorem succeeds_record (h : client.faults = [])
    (hopen : drafts = [] ∨ (nextId? (client.store.get? (counterKey settings))).isSome) :
    Succeeds (record settings drafts) client := by
  cases drafts with
  | nil => exact Store.succeeds_pure [] h
  | cons draft rest =>
      obtain ⟨n, hn⟩ := Option.isSome_iff_exists.mp (hopen.resolve_left (List.cons_ne_nil _ _))
      obtain ⟨first, hadvance, hnumber⟩ := advance_of_nextId? hn (draft :: rest).length
      refine (Store.succeeds_transact h hadvance).bind fun first' mid hfirst hmid => ?_
      have hreserved := @Store.perform_transact _ (counterKey settings)
        (advance (draft :: rest).length) client
      rw [hfirst] at hreserved
      obtain ⟨fields, hadvance', -⟩ := hreserved
      obtain ⟨rfl, -⟩ := Prod.mk.inj (Except.ok.inj (hadvance.symm.trans hadvance'))
      exact ⟨_, mid, by rw [Store.perform_liftM, hnumber], hmid⟩

theorem succeeds_commitBatches (pending : List (List Write)) (h : client.faults = []) :
    Succeeds (commitBatches pending) client := by
  induction pending generalizing client with
  | nil => exact Store.succeeds_pure () h
  | cons batch rest ih => exact (Store.succeeds_commitBatch batch h).bind fun _ _ _ hmid => ih hmid

/-- The counter alone can make a replacement fail. -/
theorem succeeds_replaceFunctions (packageId : String) (h : client.faults = [])
    (hopen : drafts = [] ∨ (nextId? (client.store.get? (counterKey settings))).isSome) :
    Succeeds (replaceFunctions settings packageId drafts) client := by
  rw [replaceFunctions_eq]
  refine (Store.succeeds_queryWith _ _ _ h).bind fun found first hfound hfirst => ?_
  obtain ⟨-, rfl⟩ := queryWith_ok hfound
  refine (succeeds_record hfirst hopen).bind fun records second _ hsecond => ?_
  refine (succeeds_commitBatches _ hsecond).bind fun _ third _ hthird => ?_
  exact Store.succeeds_pure records hthird

theorem succeeds_upsertPackage (record : Package.Record) (h : client.faults = []) :
    Succeeds (upsertPackage settings record) client := by
  refine Store.succeeds_orElse ?_ false h
  exact Store.keeps_bind .trans (Store.quiet_setDocument _ _) fun _ =>
    Store.keeps_pure .refl true

theorem succeeds_updatePackage (now id : String) (updates : Fields) (h : client.faults = []) :
    Succeeds (updatePackage settings now id updates) client := by
  refine Store.succeeds_orElse ?_ false h
  exact Store.keeps_bind .trans (Store.quiet_updateDocument _ _) fun _ =>
    Store.keeps_pure .refl true

end Undisturbed

end SignatureSearch.Database
