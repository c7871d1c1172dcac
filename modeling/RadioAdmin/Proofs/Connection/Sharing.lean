import RadioAdmin.Proofs.Connection.Link

/-!
# Connections that share a link

A connection that is replaced or taken out gives up its link. The roster does not look for other
connections over that link, so they go down with it; all others keep what they are and whether they
are up. Only a connection that takes over the link of the one that it replaces keeps it up.
-/
namespace RadioAdmin.Roster

/-- A connection that is up stays up when another one gives up its link, unless that is its own. -/
theorem isConnected_release (entries : Fields Connection) (roster : Roster)
    (released? : Option LinkId) (connection : Connection) :
    isConnected ⟨entries, Links.release roster.links released?⟩ connection =
        roster.isConnected connection ↔
      ¬ (roster.isConnected connection = true ∧ released? = some connection.link) := by
  rw [isConnected, isConnected, Links.isUp_release]
  cases Links.isUp roster.links connection.link with
  | false => simp
  | true => simp

/-- When a connection is added or taken out, every connection under another identifier stays in the
roster as it is. It is up afterwards as it was before, unless it was up over the very link that the
replaced or removed connection gives up. -/
theorem isConnected_others (roster : Roster) {name : String} {found : Connection}
    (hfound : roster.get? name = some found) :
    (∀ connection : Connection, connection.id ≠ name →
      (roster.add connection).get? name = some found ∧
      ((roster.add connection).isConnected found = roster.isConnected found ↔
        ¬ (roster.isConnected found = true ∧
          roster.replacedLink? connection = some found.link))) ∧
    (∀ id : String, id ≠ name →
      (roster.remove id).1.get? name = some found ∧
      ((roster.remove id).1.isConnected found = roster.isConnected found ↔
        ¬ (roster.isConnected found = true ∧ roster.removedLink? id = some found.link))) := by
  constructor
  · intro connection hne
    rw [add_eq, isConnected_release]
    refine ⟨?_, Iff.rfl⟩
    rw [get?, Fields.get?_insert, if_neg hne]
    exact hfound
  · intro id hne
    rw [remove_eq, isConnected_release]
    refine ⟨?_, Iff.rfl⟩
    rw [get?, Fields.get?_erase_of_ne _ hne]
    exact hfound

/-- Another link can be given up beside a connection that is up. -/
theorem isConnected_others_apart :
    let onLink (id : String) (link : Nat) : Connection := ⟨id, .tcp, .client, ⟨link⟩, "", true⟩
    let up : Link := { Link.plain with isUp := true }
    let roster : Roster :=
      ⟨[("a", onLink "a" 0), ("b", onLink "b" 0), ("c", onLink "c" 1)], [up, up, Link.plain]⟩
    roster.get? "c" = some (onLink "c" 1) ∧ roster.isConnected (onLink "c" 1) = true ∧
    (roster.add (onLink "a" 2)).isConnected (onLink "c" 1) = true ∧
    (roster.remove "b").1.isConnected (onLink "c" 1) = true := by
  intro onLink up roster
  have hfound : roster.get? "c" = some (onLink "c" 1) := by decide +kernel
  have hup : roster.isConnected (onLink "c" 1) = true := rfl
  obtain ⟨hadd, hremove⟩ := isConnected_others roster hfound
  have hreplaced : roster.replacedLink? (onLink "a" 2) ≠ some ⟨1⟩ := by decide +kernel
  have hremoved : roster.removedLink? "b" ≠ some ⟨1⟩ := by decide +kernel
  exact ⟨hfound, hup, ((hadd (onLink "a" 2) (by decide)).2.mpr fun h => hreplaced h.2).trans hup,
    ((hremove "b" (by decide)).2.mpr fun h => hremoved h.2).trans hup⟩

/-- A link that two connections share goes down for both when one of them is replaced or removed. -/
theorem isConnected_shared :
    let onLink (id : String) (link : Nat) : Connection := ⟨id, .tcp, .client, ⟨link⟩, "", true⟩
    let up : Link := { Link.plain with isUp := true }
    let roster : Roster := ⟨[("a", onLink "a" 0), ("b", onLink "b" 0)], [up, Link.plain]⟩
    roster.get? "a" = some (onLink "a" 0) ∧ roster.isConnected (onLink "b" 0) = true ∧
    (roster.add (onLink "a" 1)).get? "b" = some (onLink "b" 0) ∧
    (roster.add (onLink "a" 1)).isConnected (onLink "b" 0) = false ∧
    (roster.remove "a").1.get? "b" = some (onLink "b" 0) ∧
    (roster.remove "a").1.isConnected (onLink "b" 0) = false := by
  decide +kernel

end RadioAdmin.Roster
