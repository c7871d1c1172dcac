import RadioAdmin.Transaction.Basic

/-!
# What becomes of a transaction

A change keeps its place and what it asks for. It is resolved at most once, and what has
been resolved or skipped stays as it is. An active transaction takes further changes behind
the ones it has and sets its markers; one that has ended stays as it is.
-/
namespace RadioAdmin

/-- A change as it was and as it is later. -/
structure Change.Evolves (c d : Change) : Prop where
  kind : d.kind = c.kind
  node : d.node = c.node
  key : d.key = c.key
  previous : d.previous = c.previous
  desired : d.desired = c.desired
  status : d.status = c.status ∨
    c.status = .pending ∧ (d.status = .applied ∨ d.status = .failed)
  final : c.status ≠ .pending → d = c

namespace Change.Evolves

theorem refl (c : Change) : c.Evolves c :=
  ⟨rfl, rfl, rfl, rfl, rfl, Or.inl rfl, fun _ => rfl⟩

theorem trans {c d e : Change} (hcd : c.Evolves d) (hde : d.Evolves e) : c.Evolves e where
  kind := hde.kind.trans hcd.kind
  node := hde.node.trans hcd.node
  key := hde.key.trans hcd.key
  previous := hde.previous.trans hcd.previous
  desired := hde.desired.trans hcd.desired
  status := by
    rcases hcd.status with hs | ⟨hpending, hresolved⟩
    · rw [← hs]
      exact hde.status
    · have hne : d.status ≠ .pending := by
        intro hd
        rw [hd] at hresolved
        rcases hresolved with h | h <;> cases h
      rw [hde.final hne]
      exact Or.inr ⟨hpending, hresolved⟩
  final := by
    intro hc
    have hd := hcd.final hc
    subst hd
    exact hde.final hc

theorem apply {c : Change} (packet : Option UInt32) (h : c.isPending = true) :
    c.Evolves (c.apply packet) := by
  have hpending : c.status = .pending := of_decide_eq_true h
  exact ⟨rfl, rfl, rfl, rfl, rfl, Or.inr ⟨hpending, Or.inl rfl⟩, fun hne => absurd hpending hne⟩

theorem fail {c : Change} (message : String) (h : c.isPending = true) :
    c.Evolves (c.fail message) := by
  have hpending : c.status = .pending := of_decide_eq_true h
  exact ⟨rfl, rfl, rfl, rfl, rfl, Or.inr ⟨hpending, Or.inr rfl⟩, fun hne => absurd hpending hne⟩

end Change.Evolves

namespace Transaction

/-- A transaction as it was and as it is later. -/
structure Evolves (t u : Transaction) : Prop where
  id : u.id = t.id
  node : u.node = t.node
  createdAt : u.createdAt = t.createdAt
  changes : ∀ (i : Nat) (c : Change), t.changes[i]? = some c →
    ∃ d, u.changes[i]? = some d ∧ c.Evolves d
  beginSent : t.beginSent = true → u.beginSent = true
  commitSent : t.commitSent = true → u.commitSent = true
  ended : t.isActive = false → u = t

theorem Evolves.refl (t : Transaction) : t.Evolves t :=
  ⟨rfl, rfl, rfl, fun _ c hc => ⟨c, hc, .refl c⟩, fun h => h, fun h => h, fun _ => rfl⟩

theorem Evolves.trans {t u v : Transaction} (htu : t.Evolves u) (huv : u.Evolves v) :
    t.Evolves v where
  id := huv.id.trans htu.id
  node := huv.node.trans htu.node
  createdAt := huv.createdAt.trans htu.createdAt
  changes := by
    intro i c hc
    obtain ⟨d, hd, hcd⟩ := htu.changes i c hc
    obtain ⟨e, he, hde⟩ := huv.changes i d hd
    exact ⟨e, he, hcd.trans hde⟩
  beginSent h := huv.beginSent (htu.beginSent h)
  commitSent h := huv.commitSent (htu.commitSent h)
  ended := by
    intro hinactive
    have hu := htu.ended hinactive
    subst hu
    exact huv.ended hinactive

/-- Every operation but a removal changes an active transaction by an evolution of its changes
and flags. -/
theorem Evolves.of_active {t u : Transaction} (hactive : t.isActive = true) (id : u.id = t.id)
    (node : u.node = t.node) (createdAt : u.createdAt = t.createdAt)
    (changes : ∀ (i : Nat) (c : Change), t.changes[i]? = some c →
      ∃ d, u.changes[i]? = some d ∧ c.Evolves d)
    (beginSent : t.beginSent = true → u.beginSent = true)
    (commitSent : t.commitSent = true → u.commitSent = true) : t.Evolves u where
  id := id
  node := node
  createdAt := createdAt
  changes := changes
  beginSent := beginSent
  commitSent := commitSent
  ended h := by
    rw [hactive] at h
    cases h

theorem evolves_append {t : Transaction} (added : List Change) (hactive : t.isActive = true) :
    t.Evolves { t with changes := t.changes ++ added } := by
  refine .of_active hactive rfl rfl rfl ?_ (fun h => h) (fun h => h)
  intro i c hc
  obtain ⟨hi, -⟩ := List.getElem?_eq_some_iff.mp hc
  refine ⟨c, ?_, .refl c⟩
  rw [List.getElem?_append_left hi, hc]

theorem evolves_beginSent {t : Transaction} (hactive : t.isActive = true) :
    t.Evolves { t with beginSent := true } :=
  .of_active hactive rfl rfl rfl (fun _ c hc => ⟨c, hc, .refl c⟩) (fun _ => rfl) (fun h => h)

theorem evolves_commitSent {t : Transaction} (hactive : t.isActive = true) :
    t.Evolves { t with commitSent := true } :=
  .of_active hactive rfl rfl rfl (fun _ c hc => ⟨c, hc, .refl c⟩) (fun h => h) (fun _ => rfl)

/-- The replacement of the first change that meets a condition leaves all others in place. -/
theorem exists_evolves_of_replaceFirst? {meets : Change → Bool} {replace : Change → Change}
    (hreplace : ∀ c, meets c = true → c.Evolves (replace c)) {before after : List Change}
    (h : replaceFirst? meets replace before = some after) (i : Nat) (c : Change)
    (hc : before[i]? = some c) : ∃ d, after[i]? = some d ∧ c.Evolves d := by
  induction before generalizing after i with
  | nil => cases h
  | cons first rest ih =>
    rw [replaceFirst?] at h
    by_cases hm : meets first = true
    · rw [if_pos hm] at h
      obtain rfl := Option.some.inj h
      cases i with
      | zero =>
        obtain rfl := Option.some.inj hc
        exact ⟨_, rfl, hreplace _ hm⟩
      | succ i => exact ⟨c, hc, .refl c⟩
    · rw [if_neg hm] at h
      obtain ⟨replaced, hr, rfl⟩ := Option.map_eq_some_iff.mp h
      cases i with
      | zero => exact ⟨c, hc, .refl c⟩
      | succ i => exact ih hr i hc

/-- The resolution of the first pending change for a key, if there is one. -/
theorem evolves_resolveFirst? {t : Transaction} (key : String) {resolve : Change → Change}
    (hresolve : ∀ c : Change, c.isPending = true → c.Evolves (resolve c))
    (hactive : t.isActive = true) : t.Evolves ((t.resolveFirst? key resolve).getD t) := by
  cases h : t.resolveFirst? key resolve with
  | none => exact .refl t
  | some u =>
    obtain ⟨changes, hr, rfl⟩ := Option.map_eq_some_iff.mp h
    refine .of_active hactive rfl rfl rfl ?_ (fun h => h) (fun h => h)
    refine exists_evolves_of_replaceFirst? (fun c hc => ?_) hr
    rw [Change.isPendingFor, Bool.and_eq_true] at hc
    exact hresolve c hc.1

/-- The time of its end is known for a transaction that has ended. -/
def Timed (t : Transaction) : Prop := t.isActive = false → t.endedAt.isSome = true

/-- Ending is final: the first time of the end is kept. -/
theorem finish_of_ended {t : Transaction} (now : Instant) (htimed : t.Timed)
    (hinactive : t.isActive = false) : t.finish now = t := by
  obtain ⟨ended, he⟩ := Option.isSome_iff_exists.mp (htimed hinactive)
  cases t
  subst he hinactive
  rfl

theorem timed_resolveFirst? {t : Transaction} (key : String) (resolve : Change → Change)
    (htimed : t.Timed) : ((t.resolveFirst? key resolve).getD t).Timed := by
  cases h : t.resolveFirst? key resolve with
  | none => exact htimed
  | some u =>
    obtain ⟨changes, -, rfl⟩ := Option.map_eq_some_iff.mp h
    exact htimed

theorem evolves_finish {t : Transaction} (now : Instant) (htimed : t.Timed) :
    t.Evolves (t.finish now) := by
  cases h : t.isActive with
  | true =>
    exact .of_active h rfl rfl rfl (fun _ c hc => ⟨c, hc, .refl c⟩) (fun h => h) (fun h => h)
  | false =>
    rw [finish_of_ended now htimed h]
    exact .refl t

theorem evolves_failPending {t : Transaction} (message : String) (hactive : t.isActive = true) :
    t.Evolves (t.failPending message) := by
  refine .of_active hactive rfl rfl rfl ?_ (fun h => h) (fun h => h)
  intro i c hc
  rw [failPending, List.getElem?_map, hc, Option.map_some]
  refine ⟨_, rfl, ?_⟩
  split
  · exact .fail message ‹_›
  · exact .refl c

end Transaction

end RadioAdmin
