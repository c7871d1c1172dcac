import Mathlib.Logic.Function.Iterate
import RadioAdmin.Proofs.Connection.Link

/-!
# Connecting and disconnecting in bulk

A bulk operation comes by the chosen connections one after the other, and by a link as often as
there are chosen connections over it. Whether an attempt succeeds is a matter of the link alone, so
each further attempt on a link repeats the outcome of the first: what was told of a connection early
on still holds when the operation is through.
-/
namespace RadioAdmin

namespace Link

/-- What a change does in several turns follows from what it does after one turn or more. -/
theorem iterate_eq_of_again {change : Link → Link} (many : Nat → Link → Link)
    (once : many 1 = change)
    (again : ∀ count link, change (many (count + 1) link) = many (count + 2) link)
    (count : Nat) (link : Link) :
    change^[count] link = if count = 0 then link else many count link := by
  induction count with
  | zero => rfl
  | succ count ih =>
    rw [Function.iterate_succ_apply', ih, if_neg (Nat.succ_ne_zero count)]
    cases count with
    | zero => exact congrFun once.symm link
    | succ count => exact again count link

theorem add_ofNat_succ (calls : UInt64) (count : Nat) :
    calls + .ofNat count + 1 = calls + .ofNat (count + 1) := by
  rw [UInt64.add_assoc, UInt64.ofNat_add]
  rfl

/-- Attempts are counted one by one, while any one of them settles whether the link is up. -/
theorem connect_iterate (link : Link) (count : Nat) :
    connect^[count] link =
      if count = 0 then link
      else { link with connects := link.connects + .ofNat count, isUp := link.isReachable } :=
  iterate_eq_of_again (fun count link =>
    { link with connects := link.connects + .ofNat count, isUp := link.isReachable })
    rfl
    (fun count link => congrArg (fun calls : UInt64 =>
      { link with connects := calls, isUp := link.isReachable })
      (add_ofNat_succ link.connects (count + 1)))
    count link

theorem disconnect_iterate (link : Link) (count : Nat) :
    disconnect^[count] link =
      if count = 0 then link
      else { link with disconnects := link.disconnects + .ofNat count, isUp := false } :=
  iterate_eq_of_again (fun count link =>
    { link with disconnects := link.disconnects + .ofNat count, isUp := false })
    rfl
    (fun count link => congrArg (fun calls : UInt64 =>
      { link with disconnects := calls, isUp := false })
      (add_ofNat_succ link.disconnects (count + 1)))
    count link

end Link

namespace Roster

/-- A change made to the link of each connection reaches a link once for each connection over it. -/
theorem getElem?_foldl_modify (chosen : List Connection) (change : Link → Link) (links : Links)
    (id : LinkId) :
    (chosen.foldl (fun links connection => links.modify connection.link.index change)
        links)[id.index]? =
      links[id.index]?.map change^[chosen.countP fun connection => connection.link = id] := by
  induction chosen generalizing links with
  | nil => simp
  | cons connection rest ih =>
    rw [List.foldl_cons, ih]
    by_cases hlink : connection.link = id
    · subst hlink
      rw [List.countP_cons_of_pos (by simp), List.getElem?_modify_eq,
        Option.map_eq_map, Option.map_map, Function.iterate_succ]
    · have hindex : connection.link.index ≠ id.index := fun he => hlink (congrArg LinkId.mk he)
      rw [List.countP_cons_of_neg (by simpa using hlink), List.getElem?_modify_ne change links hindex]

/-- The links are those after an attempt for each connection that is not by hand, and each answer is
the outcome that the link had in it before the first attempt. -/
theorem connectEach_eq (chosen : List Connection) (links : Links) :
    connectEach chosen links =
      ((chosen.filter Connection.autoConnect).foldl
          (fun links connection => Links.connect links connection.link) links,
        chosen.map fun connection =>
          (connection.id, connection.autoConnect && Links.isReachable links connection.link)) := by
  induction chosen generalizing links with
  | nil => rfl
  | cons connection rest ih =>
    cases hauto : connection.autoConnect with
    | false => simp [connectEach, hauto, ih]
    | true => simp [connectEach, hauto, ih, Links.isReachable_connect]

/-- What a bulk operation is about, in the order of registration. -/
theorem selected_eq (roster : Roster) (role : Option Role) :
    roster.selected role =
      roster.all.filter fun connection => ∀ wanted ∈ role, connection.role = wanted := by
  cases role with
  | none =>
    have hall : ∀ connection ∈ roster.all, decide (∀ wanted ∈ (none : Option Role),
        connection.role = wanted) = true := by simp
    exact (List.filter_eq_self.mpr hall).symm
  | some role => simp [selected, withRole]

variable (roster : Roster) (role : Option Role)

theorem connectAll_eq :
    roster.connectAll role =
      ({ roster with links := (connectEach (roster.selected role) roster.links).1 },
        (connectEach (roster.selected role) roster.links).2) := rfl

theorem answers_connectAll :
    (roster.connectAll role).2 = (roster.selected role).map fun connection =>
      (connection.id,
        connection.autoConnect && Links.isReachable roster.links connection.link) := by
  rw [connectAll_eq, connectEach_eq]

/-- Connecting tries each link once for every selected connection over it that is not by hand. -/
theorem getElem?_links_connectAll (id : LinkId) :
    let attempts := (roster.selected role).countP fun connection =>
      connection.autoConnect ∧ connection.link = id
    (roster.connectAll role).1.links[id.index]? = roster.links[id.index]?.map fun link =>
      if attempts = 0 then link
      else { link with connects := link.connects + .ofNat attempts, isUp := link.isReachable } := by
  intro attempts
  have hcount : ((roster.selected role).filter Connection.autoConnect).countP
      (fun connection => connection.link = id) = attempts := by
    rw [List.countP_filter]
    exact List.countP_congr fun connection _ => by simp [and_comm]
  have hlinks := getElem?_foldl_modify ((roster.selected role).filter Connection.autoConnect)
    Link.connect roster.links id
  rw [hcount, funext fun link => Link.connect_iterate link attempts] at hlinks
  rw [connectAll_eq, connectEach_eq]
  exact hlinks

/-- Disconnecting cuts each link once for every selected connection over it. -/
theorem getElem?_links_disconnectAll (id : LinkId) :
    let cuts := (roster.selected role).countP fun connection => connection.link = id
    (roster.disconnectAll role).1.links[id.index]? = roster.links[id.index]?.map fun link =>
      if cuts = 0 then link
      else { link with disconnects := link.disconnects + .ofNat cuts, isUp := false } := by
  intro cuts
  have hlinks := getElem?_foldl_modify (roster.selected role) Link.disconnect roster.links id
  rw [funext fun link => Link.disconnect_iterate link cuts] at hlinks
  exact hlinks

variable {roster role}

theorem isConnected_connectAll {connection : Connection}
    (hselected : connection ∈ roster.selected role) (hauto : connection.autoConnect = true) :
    (roster.connectAll role).1.isConnected connection =
      Links.isReachable roster.links connection.link := by
  rw [connectAll_eq, isConnected, isUp_connectEach,
    if_pos ⟨connection, hselected, hauto, rfl⟩]

theorem isConnected_disconnectAll {connection : Connection}
    (hselected : connection ∈ roster.selected role) :
    (roster.disconnectAll role).1.isConnected connection = false := by
  have hdown : Links.isUp (roster.disconnectAll role).1.links connection.link = _ :=
    isUp_disconnectEach (roster.selected role) roster.links connection.link
  have hcut : ¬ ∀ other ∈ roster.selected role, other.link ≠ connection.link :=
    fun h => h connection hselected rfl
  rw [isConnected, hdown, decide_eq_false hcut, Bool.and_false]

/-- Whatever links are shared, connecting in bulk answers each selected connection in order: not, if
it is by hand, and otherwise as its link comes out. Each link is tried once for every connection to
be tried over it and is untouched if there is none, and each answer holds of the roster afterwards.
Disconnecting in bulk cuts each link once for every selected connection over it, and leaves none of
them up. No connection is changed. -/
theorem bulk_settles_selected (roster : Roster) (role : Option Role) :
    let chosen := roster.all.filter fun connection => ∀ wanted ∈ role, connection.role = wanted
    let outcome (connection : Connection) :=
      connection.autoConnect && Links.isReachable roster.links connection.link
    let tried := (roster.connectAll role).1
    let cut := (roster.disconnectAll role).1
    ((roster.connectAll role).2 = chosen.map (fun connection => (connection.id, outcome connection)) ∧
      tried.entries = roster.entries ∧
      (∀ id : LinkId,
        let attempts := chosen.countP fun connection =>
          connection.autoConnect ∧ connection.link = id
        tried.links[id.index]? = roster.links[id.index]?.map fun link =>
          if attempts = 0 then link
          else { link with connects := link.connects + .ofNat attempts, isUp := link.isReachable }) ∧
      ∀ connection ∈ chosen,
        (outcome connection = true → tried.isConnected connection = true) ∧
        (connection.autoConnect = true → outcome connection = false →
          tried.isConnected connection = false)) ∧
    ((roster.disconnectAll role).2 = chosen.map (fun connection => (connection.id, true)) ∧
      cut.entries = roster.entries ∧
      (∀ id : LinkId,
        let cuts := chosen.countP fun connection => connection.link = id
        cut.links[id.index]? = roster.links[id.index]?.map fun link =>
          if cuts = 0 then link
          else { link with disconnects := link.disconnects + .ofNat cuts, isUp := false }) ∧
      ∀ connection ∈ chosen, cut.isConnected connection = false) := by
  intro chosen outcome tried cut
  have hchosen : chosen = roster.selected role := (selected_eq roster role).symm
  have houtcome : ∀ connection ∈ roster.selected role, connection.autoConnect = true →
      tried.isConnected connection = outcome connection := by
    intro connection hselected hauto
    show tried.isConnected connection = (connection.autoConnect && _)
    rw [isConnected_connectAll hselected hauto, hauto, Bool.true_and]
  rw [hchosen]
  refine ⟨⟨answers_connectAll roster role, rfl, getElem?_links_connectAll roster role, ?_⟩,
    rfl, rfl, getElem?_links_disconnectAll roster role, ?_⟩
  · intro connection hselected
    constructor
    · intro htold
      have hauto := (Bool.and_eq_true_iff.mp htold).1
      exact (houtcome connection hselected hauto).trans htold
    · intro hauto htold
      exact (houtcome connection hselected hauto).trans htold
  · intro connection hselected
    exact isConnected_disconnectAll hselected

/-- Two connections share the first link, and a third one is by hand. -/
example :
    let onLink (id : String) (link : Nat) (auto : Bool) : Connection :=
      ⟨id, .tcp, .admin, ⟨link⟩, "", auto⟩
    let roster : Roster := ⟨[("a", onLink "a" 0 true), ("b", onLink "b" 1 false),
      ("c", onLink "c" 0 true)], [Link.plain, Link.plain]⟩
    (roster.connectAll none).2 = [("a", true), ("b", false), ("c", true)] ∧
    (roster.connectAll none).1.links.map Link.connectCalls = [2, 0] := by
  decide +kernel

end Roster

end RadioAdmin
