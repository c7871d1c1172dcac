import RadioAdmin.Connection.Roster
import RadioAdmin.Proofs.Fields

/-!
# Which links are up

What is up in a table of links after one of them has been connected, disconnected or created, and
after each operation of a roster. A connection that leaves the roster gives up its link: it is this
link that goes down, and no other.
-/
namespace RadioAdmin

namespace Links

theorem get_eq (links : Links) (id : LinkId) :
    get links id = links[id.index]?.getD Link.unreachable := List.getD_eq_getElem?_getD

/-- Past the end of the table there is only an unreachable link. -/
theorem get_of_le {links : Links} {id : LinkId} (h : links.length ≤ id.index) :
    get links id = Link.unreachable := by
  rw [get_eq, List.getElem?_eq_none h, Option.getD_none]

theorem get_modify_of_ne {id other : LinkId} (links : Links) (change : Link → Link)
    (h : id ≠ other) : get (links.modify id.index change) other = get links other := by
  have hindex : id.index ≠ other.index := fun he => h (congrArg LinkId.mk he)
  rw [get_eq, get_eq, List.getElem?_modify_ne change links hindex]

theorem get_modify_self (links : Links) (id : LinkId) (change : Link → Link) :
    get (links.modify id.index change) id =
      if id.index < links.length then change (get links id) else get links id := by
  split
  · rename_i hplace
    rw [get_eq, get_eq, List.getElem?_modify_eq, List.getElem?_eq_getElem hplace]
    rfl
  · rename_i hend
    have hend' := Nat.le_of_not_lt hend
    rw [get_of_le hend', get_of_le (by rwa [List.length_modify])]

/-- A link is up after an attempt to connect it exactly if the attempt succeeds. -/
theorem isUp_connect (links : Links) (id other : LinkId) :
    isUp (connect links id) other =
      if id = other then isReachable links other else isUp links other := by
  rw [isUp, connect]
  split
  · rename_i h
    subst h
    rw [get_modify_self, isReachable]
    split
    · rfl
    · rename_i hend
      rw [get_of_le (Nat.le_of_not_lt hend)]
      rfl
  · rename_i h
    rw [get_modify_of_ne links _ h, isUp]

theorem isReachable_connect (links : Links) (id other : LinkId) :
    isReachable (connect links id) other = isReachable links other := by
  rw [isReachable, isReachable, connect]
  by_cases h : id = other
  · subst h
    rw [get_modify_self]
    split <;> rfl
  · rw [get_modify_of_ne links _ h]

/-- Disconnecting a link takes it down, if it was up, and no other. -/
theorem isUp_disconnect (links : Links) (id other : LinkId) :
    isUp (disconnect links id) other = (isUp links other && decide (id ≠ other)) := by
  rw [isUp, isUp, disconnect]
  by_cases h : id = other
  · subst h
    rw [get_modify_self, decide_eq_false (fun hne => hne rfl), Bool.and_false]
    split
    · rfl
    · rename_i hend
      rw [get_of_le (Nat.le_of_not_lt hend)]
      rfl
  · rw [get_modify_of_ne links _ h, decide_eq_true h, Bool.and_true]

theorem get_create (links : Links) (link : Link) (id : LinkId) :
    get (create links link).1 id = if id.index = links.length then link else get links id := by
  rw [create, get_eq, get_eq]
  split
  · rename_i hplace
    rw [hplace, List.getElem?_concat_length, Option.getD_some]
  · rename_i hplace
    rcases Nat.lt_or_gt_of_ne hplace with hbefore | hbehind
    · rw [List.getElem?_append_left hbefore]
    · rw [List.getElem?_eq_none (by rw [List.length_append, List.length_singleton]; exact hbehind),
        List.getElem?_eq_none (Nat.le_of_lt hbehind)]

/-- The table after a link has been given up: a link that is up is disconnected. -/
def release (links : Links) : Option LinkId → Links
  | none => links
  | some id => if isUp links id then disconnect links id else links

theorem length_release (links : Links) (released? : Option LinkId) :
    (release links released?).length = links.length := by
  cases released? with
  | none => rfl
  | some id =>
    rw [release]
    split
    · exact List.length_modify ..
    · rfl

/-- A link that is given up is down afterwards, and every other one is as before. -/
theorem isUp_release (links : Links) (released? : Option LinkId) (other : LinkId) :
    isUp (release links released?) other =
      (isUp links other && decide (released? ≠ some other)) := by
  cases released? with
  | none => rw [release, decide_eq_true (Option.some_ne_none other).symm, Bool.and_true]
  | some id =>
    have hid : decide (some id ≠ some other) = decide (id ≠ other) := by
      simp only [ne_eq, Option.some_inj]
    rw [release, hid]
    split
    · exact isUp_disconnect links id other
    · rename_i hdown
      by_cases h : id = other
      · subst h
        rw [Bool.eq_false_iff.mpr hdown, Bool.false_and]
      · rw [decide_eq_true h, Bool.and_true]

end Links

namespace Roster

/-- The link that a connection gives up when another takes its place: none if they share it. -/
def replacedLink? (roster : Roster) (connection : Connection) : Option LinkId :=
  ((roster.get? connection.id).map Connection.link).filter fun link => link ≠ connection.link

/-- The link that a connection gives up when it is taken out. -/
def removedLink? (roster : Roster) (id : String) : Option LinkId :=
  (roster.get? id).map Connection.link

theorem add_eq (roster : Roster) (connection : Connection) :
    roster.add connection =
      ⟨Fields.insert roster.entries connection.id connection,
        Links.release roster.links (roster.replacedLink? connection)⟩ := by
  rw [add, replacedLink?]
  cases roster.get? connection.id with
  | none => rfl
  | some previous =>
    rw [Option.map_some, Option.filter_some]
    by_cases hsame : previous.link = connection.link
    · simp [hsame, Links.release]
    · cases hup : Links.isUp roster.links previous.link <;>
        simp [hsame, hup, Links.release, isConnected, disconnectLink]

theorem remove_eq (roster : Roster) (id : String) :
    (roster.remove id).1 =
      ⟨Fields.erase roster.entries id, Links.release roster.links (roster.removedLink? id)⟩ := by
  rw [remove, removedLink?]
  cases hget : roster.get? id with
  | none => rw [Fields.erase_of_get?_eq_none hget, Option.map_none, Links.release]
  | some connection =>
    cases hup : Links.isUp roster.links connection.link <;>
      simp [Links.release, isConnected, disconnectLink, hup]

/-- Connecting one after the other, the connections by hand aside, settles every link that is
tried by whether it can be reached. -/
theorem isUp_connectEach (chosen : List Connection) (links : Links) (id : LinkId) :
    Links.isUp (connectEach chosen links).1 id =
      if ∃ connection ∈ chosen, connection.autoConnect = true ∧ connection.link = id then
        Links.isReachable links id
      else Links.isUp links id := by
  induction chosen generalizing links with
  | nil => rfl
  | cons connection rest ih =>
    simp only [List.mem_cons, exists_eq_or_imp]
    cases hauto : connection.autoConnect with
    | false =>
      have hrest : (connectEach (connection :: rest) links).1 = (connectEach rest links).1 := by
        rw [connectEach, hauto]
        rfl
      simp only [hrest, ih, Bool.false_eq_true, false_and, false_or]
    | true =>
      have hrest : (connectEach (connection :: rest) links).1 =
          (connectEach rest (Links.connect links connection.link)).1 := by
        rw [connectEach, hauto]
        rfl
      rw [hrest, ih, Links.isReachable_connect, Links.isUp_connect]
      by_cases hlink : connection.link = id <;> simp [hlink]

theorem isUp_disconnectEach (chosen : List Connection) (links : Links) (id : LinkId) :
    Links.isUp
        (chosen.foldl (fun links connection => Links.disconnect links connection.link) links) id =
      (Links.isUp links id && decide (∀ connection ∈ chosen, connection.link ≠ id)) := by
  induction chosen generalizing links with
  | nil => simp
  | cons connection rest ih =>
    rw [List.foldl_cons, ih, Links.isUp_disconnect, Bool.and_assoc]
    simp only [List.forall_mem_cons, Bool.decide_and]

end Roster

end RadioAdmin
