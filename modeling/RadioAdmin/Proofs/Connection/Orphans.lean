import RadioAdmin.Proofs.Connection.Link
import RadioAdmin.Startup.Run

/-!
# No link is up that no connection has

Links are connected through the roster alone, by the connections that are registered at that time.
When a connection leaves the roster its link goes down with it, or stays with the connection that
takes its place. So whatever is up can be reached through the roster.
-/
namespace RadioAdmin.Roster

/-- Some registered connection is over a link. -/
def Holds (roster : Roster) (link : LinkId) : Prop :=
  ∃ connection ∈ roster.all, connection.link = link

/-- Every link that is up is that of a registered connection. -/
def NoOrphans (roster : Roster) : Prop :=
  ∀ link, Links.isUp roster.links link = true → roster.Holds link

/-- The links that an operation creates are down; only a factory can create any. -/
def Op.CreatesDown : Op → Prop
  | .registerAll factory definitions => ∀ definition ∈ definitions, ∀ transport link,
    factory definition transport = some (.created link) → link.isUp = false
  | _ => True

variable {roster : Roster}

theorem noOrphans_of_down {links : Links} (hdown : ∀ link ∈ links, link.isUp = false) :
    NoOrphans ⟨[], links⟩ := by
  intro id hup
  have hget : (Links.get links id).isUp = false := by
    rw [Links.get_eq]
    cases hid : links[id.index]? with
    | none => rfl
    | some link => exact hdown link (List.mem_of_getElem? hid)
  rw [Links.isUp, hget] at hup
  cases hup

theorem mem_all_of_selected {role : Option Role} {connection : Connection}
    (h : connection ∈ roster.selected role) : connection ∈ roster.all := by
  cases role with
  | none => exact h
  | some role => exact (List.mem_filter.mp h).1

namespace NoOrphans

/-- Links may go down, and those of registered connections may come up. -/
theorem withLinks {links : Links} (h : NoOrphans roster)
    (hup : ∀ link, Links.isUp links link = true →
      Links.isUp roster.links link = true ∨ roster.Holds link) :
    NoOrphans { roster with links := links } :=
  fun link hlink => (hup link hlink).elim (h link) id

theorem add (h : NoOrphans roster) (connection : Connection) :
    NoOrphans (roster.add connection) := by
  intro link hup
  rw [add_eq] at hup ⊢
  rw [Links.isUp_release, Bool.and_eq_true, decide_eq_true_iff] at hup
  obtain ⟨holder, hholder, rfl⟩ := h link hup.1
  by_cases hsame : holder.link = connection.link
  · exact ⟨connection, (Fields.mem_contents_insert _ _ _ _).mpr (.inl rfl), hsame.symm⟩
  rcases (Fields.mem_contents_iff _ connection.id holder).mp hholder with hreplaced | hkept
  · refine absurd ?_ hup.2
    rw [replacedLink?, get?, hreplaced, Option.map_some, Option.filter_some,
      if_pos (by simpa using hsame)]
  · exact ⟨holder, (Fields.mem_contents_insert _ _ _ _).mpr (.inr hkept), rfl⟩

theorem remove (h : NoOrphans roster) (id : String) : NoOrphans (roster.remove id).1 := by
  intro link hup
  rw [remove_eq] at hup ⊢
  rw [Links.isUp_release, Bool.and_eq_true, decide_eq_true_iff] at hup
  obtain ⟨holder, hholder, rfl⟩ := h link hup.1
  rcases (Fields.mem_contents_iff _ id holder).mp hholder with hremoved | hkept
  · refine absurd ?_ hup.2
    rw [removedLink?, get?, hremoved, Option.map_some]
  · exact ⟨holder, hkept, rfl⟩

theorem addAndConnect (h : NoOrphans roster) (connection : Connection) :
    NoOrphans (roster.addAndConnect connection).1 := by
  rw [Roster.addAndConnect]
  split
  · refine (h.add connection).withLinks fun link hup => ?_
    rw [Links.isUp_connect] at hup
    split at hup
    · rename_i hlink
      refine .inr ⟨connection, ?_, hlink⟩
      rw [add_eq]
      exact (Fields.mem_contents_insert _ _ _ _).mpr (.inl rfl)
    · exact .inl hup
  · exact h.add connection

/-- A role does not change what a connection is over. -/
theorem setRole (h : NoOrphans roster) (id : String) (role : Role) :
    NoOrphans (roster.setRole id role).1 := by
  rw [Roster.setRole]
  split
  · intro link hup
    obtain ⟨holder, hholder, rfl⟩ := h link hup
    rcases (Fields.mem_contents_iff _ id holder).mp hholder with hfound | hkept
    · exact ⟨_, (Fields.mem_contents_modify _ _ _ _).mpr (.inl ⟨holder, hfound, rfl⟩), rfl⟩
    · exact ⟨holder, (Fields.mem_contents_modify _ _ _ _).mpr (.inr hkept), rfl⟩
  · exact h

theorem connectAll (h : NoOrphans roster) (role : Option Role) :
    NoOrphans (roster.connectAll role).1 := by
  refine h.withLinks fun link hup => ?_
  rw [isUp_connectEach] at hup
  split at hup
  · rename_i htried
    obtain ⟨connection, hselected, -, hlink⟩ := htried
    exact .inr ⟨connection, mem_all_of_selected hselected, hlink⟩
  · exact .inl hup

theorem disconnectAll (h : NoOrphans roster) (role : Option Role) :
    NoOrphans (roster.disconnectAll role).1 := by
  refine h.withLinks fun link hup => ?_
  rw [isUp_disconnectEach, Bool.and_eq_true] at hup
  exact .inl hup.1

theorem provide (h : NoOrphans roster) {choice : LinkChoice}
    (hcreated : ∀ link, choice = .created link → link.isUp = false) :
    NoOrphans (Startup.provide roster choice).1 := by
  cases choice with
  | existing id => exact h
  | created link =>
    refine h.withLinks fun id hup => ?_
    change (Links.get (Links.create roster.links link).1 id).isUp = true at hup
    rw [Links.get_create] at hup
    split at hup
    · rw [hcreated link rfl] at hup
      cases hup
    · exact .inl hup

theorem connectionOf (h : NoOrphans roster) {factory : LinkFactory}
    {definition : ConnectionDefinition}
    (hcreated : ∀ transport link, factory definition transport = some (.created link) →
      link.isUp = false) :
    NoOrphans (Startup.connectionOf factory roster definition).1 := by
  rw [Startup.connectionOf]
  cases husable : Startup.usable? factory definition with
  | none => exact h
  | some usable =>
    obtain ⟨transport, choice⟩ := usable
    refine h.provide ?_
    rintro link rfl
    rw [Startup.usable?] at husable
    split at husable
    · cases husable
    · split at husable
      · cases husable
      · obtain ⟨choice, hchoice, heq⟩ := Option.map_eq_some_iff.mp husable
        obtain rfl := (Prod.mk.inj heq).2
        exact hcreated _ link hchoice

theorem registerAll (h : NoOrphans roster) {factory : LinkFactory}
    {definitions : List ConnectionDefinition}
    (hcreated : (Op.registerAll factory definitions).CreatesDown) :
    NoOrphans (Startup.registerAll factory roster definitions).1 := by
  induction definitions generalizing roster with
  | nil => exact h
  | cons definition rest ih =>
    have hnext := h.connectionOf (hcreated definition List.mem_cons_self)
    have hrest : (Op.registerAll factory rest).CreatesDown := fun other hother =>
      hcreated other (List.mem_cons_of_mem definition hother)
    rw [Startup.registerAll]
    cases hconnection : Startup.connectionOf factory roster definition with
    | mk next connection? =>
      rw [hconnection] at hnext
      cases connection? with
      | none => exact ih hnext hrest
      | some connection => exact ih (hnext.add connection) hrest

theorem step {op : Op} (h : NoOrphans roster) (hcreated : op.CreatesDown) :
    NoOrphans (roster.step op).1 := by
  cases op with
  | add connection => exact h.add connection
  | addAndConnect connection => exact h.addAndConnect connection
  | remove id => exact h.remove id
  | setRole id role => exact h.setRole id role
  | connectAll role => exact h.connectAll role
  | disconnectAll role => exact h.disconnectAll role
  | registerAll factory definitions => exact h.registerAll hcreated

theorem run {ops : List Op} (h : NoOrphans roster) (hcreated : ∀ op ∈ ops, op.CreatesDown) :
    NoOrphans (roster.run ops).1 := by
  induction ops generalizing roster with
  | nil => exact h
  | cons op rest ih =>
    exact ih (h.step (hcreated op List.mem_cons_self)) fun other hother =>
      hcreated other (List.mem_cons_of_mem op hother)

end NoOrphans

/-- From a roster without connections over links that are down, no run of operations comes to a
state in which a link is up that is not the link of a registered connection, however the connections
share their links. -/
theorem run_noOrphans (links : Links) (ops : List Op)
    (hdown : ∀ link ∈ links, link.isUp = false) (hcreated : ∀ op ∈ ops, op.CreatesDown) :
    ∀ front, front <+: ops → ∀ link,
      Links.isUp (run ⟨[], links⟩ front).1.links link = true →
        ∃ connection ∈ (run ⟨[], links⟩ front).1.all, connection.link = link := by
  intro front hfront
  exact (noOrphans_of_down hdown).run fun op hop => hcreated op (hfront.subset hop)

/-- A link that was cut with the connection that shared it is up again with the one that is left. -/
theorem run_noOrphans_shared :
    let onLink (id : String) (link : Nat) : Connection := ⟨id, .tcp, .client, ⟨link⟩, "", true⟩
    let links : Links := [Link.plain, Link.plain]
    let factory : LinkFactory := fun _ _ => some (.created Link.plain)
    let ops : List Op := [.addAndConnect (onLink "a" 0), .add (onLink "b" 0), .add (onLink "a" 1),
      .registerAll factory [.new "c" .tcp], .connectAll none, .remove "a"]
    (∀ link ∈ links, link.isUp = false) ∧ (∀ op ∈ ops, op.CreatesDown) ∧
    Links.isUp (run ⟨[], links⟩ (ops.take 4)).1.links ⟨0⟩ = false ∧
    Links.isUp (run ⟨[], links⟩ ops).1.links ⟨0⟩ = true ∧
    ∃ connection ∈ (run ⟨[], links⟩ ops).1.all, connection.link = ⟨0⟩ := by
  intro onLink links factory ops
  have hdown : ∀ link ∈ links, link.isUp = false := by decide
  have hcreated : ∀ op ∈ ops, op.CreatesDown := by
    have hplain : (Op.registerAll factory [.new "c" .tcp]).CreatesDown := by
      intro _ _ _ link hlink
      cases hlink
      rfl
    simpa [ops, Op.CreatesDown] using hplain
  have hcut : Links.isUp (run ⟨[], links⟩ (ops.take 4)).1.links ⟨0⟩ = false := by decide +kernel
  have hup : Links.isUp (run ⟨[], links⟩ ops).1.links ⟨0⟩ = true := by decide +kernel
  exact ⟨hdown, hcreated, hcut, hup,
    run_noOrphans links ops hdown hcreated ops (List.prefix_refl ops) ⟨0⟩ hup⟩

end RadioAdmin.Roster
