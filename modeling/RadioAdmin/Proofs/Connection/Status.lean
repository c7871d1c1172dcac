import RadioAdmin.Connection.Status
import RadioAdmin.Proofs.Connection.Order

/-!
# What a status report tells of the link for a role

A status report counts the connections of each role and tells whether one of them is up. The link
for the traffic of a role is chosen without the report, but both go through the connections of the
role in the order of their registration. So the report tells beforehand what the choice comes to:
whether there is a link, and whether it is up.
-/
namespace RadioAdmin

/-- How many connections of a role a report counts. -/
def RosterStatus.count (status : RosterStatus) : Role → Nat
  | .admin => status.admins
  | .client => status.clients

/-- Whether a report tells that a connection of a role is up. -/
def RosterStatus.isConnected (status : RosterStatus) : Role → Bool
  | .admin => status.adminConnected
  | .client => status.clientConnected

namespace Roster

variable (roster : Roster) (role : Role)

theorem count_status : roster.status.count role = (roster.withRole role).length := by
  cases role <;> rfl

theorem isConnected_status :
    roster.status.isConnected role = (roster.withRole role).any roster.isConnected := by
  cases role <;> rfl

theorem length_withRole :
    (roster.withRole .admin).length + (roster.withRole .client).length = roster.all.length := by
  rw [← List.length_append, (withRole_append_perm roster).length_eq]

theorem linkFor?_eq_none_iff : roster.linkFor? role = none ↔ roster.withRole role = [] := by
  rw [linkFor?, Option.map_eq_none_iff, Option.or_eq_none_iff, List.head?_eq_none_iff,
    and_iff_right_of_imp]
  intro hnone
  rw [hnone, List.find?_nil]

variable {roster role}

/-- While a connection of the role is up, the link is that of the first such connection. -/
theorem linkFor?_of_connected (h : (roster.withRole role).any roster.isConnected = true) :
    ∃ before found after, roster.all = before ++ found :: after ∧
      found.role = role ∧ roster.isConnected found = true ∧
      (∀ other ∈ before, other.role = role → roster.isConnected other = false) ∧
      roster.linkFor? role = some found.link := by
  obtain ⟨found, hfound⟩ := Option.isSome_iff_exists.mp
    (List.find?_isSome.mpr (List.any_eq_true.mp h))
  have hlink : roster.linkFor? role = some found.link := by
    rw [linkFor?, hfound, Option.some_or, Option.map_some]
  rw [withRole, List.find?_filter, List.find?_eq_some_iff_append] at hfound
  obtain ⟨hup, before, after, hall, hbefore⟩ := hfound
  simp only [Bool.decide_and, decide_eq_true_eq, Bool.and_eq_true] at hup
  refine ⟨before, found, after, hall, hup.1, hup.2, fun other hother hrole => ?_, hlink⟩
  simpa [hrole] using hbefore other hother

/-- While none is up, it is that of the first connection of the role. -/
theorem linkFor?_of_not_connected (h : (roster.withRole role).any roster.isConnected = false) :
    roster.linkFor? role = (roster.firstWithRole? role).map Connection.link := by
  have hnone : (roster.withRole role).find? roster.isConnected = none := by
    simpa using h
  rw [linkFor?, hnone, Option.none_or, firstWithRole?_eq]

/-- The link for a role is up exactly if some connection of the role is. -/
theorem isUp_linkFor?_iff :
    (∃ link, roster.linkFor? role = some link ∧ Links.isUp roster.links link = true) ↔
      (roster.withRole role).any roster.isConnected = true := by
  constructor
  · rintro ⟨link, hlink, hup⟩
    cases hany : (roster.withRole role).any roster.isConnected with
    | true => rfl
    | false =>
      rw [linkFor?_of_not_connected hany] at hlink
      obtain ⟨first, hfirst, rfl⟩ := Option.map_eq_some_iff.mp hlink
      rw [firstWithRole?_eq] at hfirst
      exact hany.symm.trans (List.any_eq_true.mpr ⟨first, List.mem_of_head? hfirst, hup⟩)
  · intro h
    obtain ⟨_, found, _, _, _, hup, _, hlink⟩ := linkFor?_of_connected h
    exact ⟨found.link, hlink, hup⟩

/-- A report lists all connections in order and counts them under their roles. For each role there
is a link exactly if the count is not zero, and the link is up exactly if the report tells that a
connection of the role is; it is then the link of the first that is up, and otherwise of the first
of the role. -/
theorem status_tells_links (roster : Roster) :
    let status := roster.status
    status.total = status.admins + status.clients ∧
    status.total = status.connections.length ∧
    status.connections = roster.all.map roster.statusOf ∧
    ∀ role,
      status.count role = (status.connections.countP fun connection => connection.role = role) ∧
      (roster.linkFor? role = none ↔ status.count role = 0) ∧
      (status.isConnected role = true ↔
        ∃ link, roster.linkFor? role = some link ∧ Links.isUp roster.links link = true) ∧
      (status.isConnected role = true →
        ∃ before found after, roster.all = before ++ found :: after ∧
          found.role = role ∧ roster.isConnected found = true ∧
          (∀ other ∈ before, other.role = role → roster.isConnected other = false) ∧
          roster.linkFor? role = some found.link) ∧
      (status.isConnected role = false → status.count role ≠ 0 →
        ∃ first, roster.firstWithRole? role = some first ∧
          roster.linkFor? role = some first.link) := by
  intro status
  refine ⟨(length_withRole roster).symm, (List.length_map _).symm, rfl, fun role => ?_⟩
  rw [isConnected_status, count_status]
  refine ⟨?_, ?_, isUp_linkFor?_iff.symm, linkFor?_of_connected, fun hdown hcount => ?_⟩
  · show _ = (roster.all.map roster.statusOf).countP _
    rw [List.countP_map, withRole, List.countP_eq_length_filter]
    rfl
  · rw [linkFor?_eq_none_iff, List.length_eq_zero_iff]
  · obtain ⟨first, hfirst⟩ := Option.isSome_iff_exists.mp
      (List.isSome_head?.mpr fun hnil => hcount (List.length_eq_zero_iff.mpr hnil))
    rw [← firstWithRole?_eq] at hfirst
    refine ⟨first, hfirst, ?_⟩
    rw [linkFor?_of_not_connected hdown, hfirst, Option.map_some]

/-- Of two administrators only the second is up, and the client is down. -/
theorem status_tells_links_second_up :
    let onLink (id : String) (role : Role) (link : Nat) : Connection :=
      ⟨id, .tcp, role, ⟨link⟩, "", true⟩
    let roster : Roster := ⟨[("a", onLink "a" .admin 0), ("b", onLink "b" .client 0),
      ("c", onLink "c" .admin 1)], [Link.plain, { Link.plain with isUp := true }]⟩
    roster.status.isConnected .admin = true ∧
    (∃ found, found.role = .admin ∧ roster.isConnected found = true ∧
      roster.linkFor? .admin = some found.link) ∧
    roster.status.isConnected .client = false ∧ roster.status.count .client ≠ 0 ∧
    ∃ first, roster.firstWithRole? .client = some first ∧
      roster.linkFor? .client = some first.link := by
  intro onLink roster
  obtain ⟨_, _, _, htold⟩ := status_tells_links roster
  have hadmin : roster.status.isConnected .admin = true := by decide +kernel
  have hclient : roster.status.isConnected .client = false := by decide +kernel
  have hcount : roster.status.count .client ≠ 0 := by decide +kernel
  obtain ⟨_, _, _, hconnected, _⟩ := htold .admin
  obtain ⟨_, _, _, _, hdown⟩ := htold .client
  obtain ⟨_, found, _, _, hrole, hup, _, hlink⟩ := hconnected hadmin
  exact ⟨hadmin, ⟨found, hrole, hup, hlink⟩, hclient, hcount, hdown hclient hcount⟩

end Roster

end RadioAdmin
