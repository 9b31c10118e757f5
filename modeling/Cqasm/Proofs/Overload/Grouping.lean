import Cqasm.Dialect.Builtin
import Cqasm.Overload.Table
import Mathlib.Data.Finset.Card
import Mathlib.Data.List.Induction

/-!
# A table groups its overloads

However the overloads of different names are mixed when they are added, a table keeps them apart by
the keys of their names and loses none of them: the set of a name has the overloads of its key in the
order in which they were added, and the sets stand in the order in which their keys first occurred
(`groups_ofList`).

* `OverloadSet.ofList?`, `OverloadSet.extend` : the set of given overloads, and of one more;
* `OverloadTable.get?_add`, `OverloadTable.keys_addAt` : what adding an overload changes;
* `OverloadTable.Groups` : what a table has of the overloads added to it.
-/

namespace Cqasm

/-! ## First occurrences -/

section EraseDups

variable {α : Type} [DecidableEq α]

theorem eraseDups_concat (l : List α) (a : α) :
    (l ++ [a]).eraseDups = if a ∈ l then l.eraseDups else l.eraseDups ++ [a] := by
  rw [List.eraseDups_append]
  split <;> simp [List.removeAll, List.eraseDups_cons, *]

theorem nodup_eraseDups (l : List α) : l.eraseDups.Nodup := by
  induction l using List.reverseRecOn with
  | nil => simp
  | append_singleton l a ih =>
    rw [eraseDups_concat]
    split
    · exact ih
    · next hnot =>
      rw [← List.concat_eq_append]
      exact ih.concat (by simpa using hnot)

theorem length_eraseDups (l : List α) : l.eraseDups.length = l.toFinset.card := by
  have hsame : l.toFinset = l.eraseDups.toFinset := by
    ext a
    simp
  rw [hsame, List.toFinset_card_of_nodup (nodup_eraseDups l)]

end EraseDups

/-! ## Sets -/

namespace OverloadSet

/-- The set of the given overloads, named as the first of them is written. -/
def ofList? : List Overload → Option OverloadSet
  | [] => none
  | o :: overloads => some ⟨o.name, o :: overloads⟩

/-- The set with one more overload, or a set of its own for it. -/
def extend (o : Overload) : Option OverloadSet → OverloadSet
  | none => ⟨o.name, [o]⟩
  | some set => set.add o

theorem ofList?_concat (overloads : List Overload) (o : Overload) :
    ofList? (overloads ++ [o]) = some (extend o (ofList? overloads)) := by
  cases overloads <;> rfl

theorem ofList?_eq_none_iff {overloads : List Overload} : ofList? overloads = none ↔ overloads = [] := by
  cases overloads <;> simp [ofList?]

theorem overloads_of_ofList? {overloads : List Overload} {set : OverloadSet}
    (h : ofList? overloads = some set) : set.overloads = overloads := by
  cases overloads with
  | nil => cases h
  | cons o overloads =>
    cases h
    rfl

theorem name_of_ofList? {overloads : List Overload} {set : OverloadSet}
    (h : ofList? overloads = some set) : overloads.head?.map Overload.name = some set.name := by
  cases overloads with
  | nil => cases h
  | cons o overloads =>
    cases h
    rfl

end OverloadSet

/-! ## Adding an overload -/

namespace OverloadTable

theorem keys_addAt (key : String) (o : Overload) (entries : List (String × OverloadSet)) :
    (addAt key o entries).map (·.1)
      = if key ∈ entries.map (·.1) then entries.map (·.1) else entries.map (·.1) ++ [key] := by
  induction entries with
  | nil => rfl
  | cons entry rest ih =>
    rw [addAt]
    by_cases hkey : entry.1 = key
    · simp [hkey]
    · rw [if_neg hkey, List.map_cons, ih]
      by_cases hmem : key ∈ rest.map (·.1) <;> simp [hmem, Ne.symm hkey]

theorem find?_addAt (key other : String) (o : Overload) (entries : List (String × OverloadSet)) :
    ((addAt key o entries).find? (·.1 = other)).map (·.2)
      = if other = key then some (.extend o ((entries.find? (·.1 = other)).map (·.2)))
        else (entries.find? (·.1 = other)).map (·.2) := by
  induction entries with
  | nil => by_cases h : key = other <;> simp [addAt, OverloadSet.extend, h, eq_comm]
  | cons entry rest ih =>
    rw [addAt]
    by_cases hkey : entry.1 = key
    · by_cases h : key = other <;> simp [hkey, h, OverloadSet.extend, eq_comm]
    · rw [if_neg hkey]
      by_cases h : entry.1 = other
      · have hother : other ≠ key := h ▸ hkey
        simp [h, hother]
      · rw [List.find?_cons_of_neg (by simpa using h), ih, List.find?_cons_of_neg (by simpa using h)]

/-- Nothing is lost and nothing else is added. -/
theorem perm_addAt (key : String) (o : Overload) (entries : List (String × OverloadSet)) :
    ((addAt key o entries).flatMap (·.2.overloads)).Perm
      (entries.flatMap (·.2.overloads) ++ [o]) := by
  induction entries with
  | nil => exact .refl _
  | cons entry rest ih =>
    rw [addAt]
    split
    · rw [List.flatMap_cons, List.flatMap_cons, OverloadSet.overloads_add, List.append_assoc,
        List.append_assoc]
      exact List.perm_append_comm.append_left _
    · rw [List.flatMap_cons, List.flatMap_cons, List.append_assoc]
      exact ih.append_left _

/-- The key of an entry is that of the name of its set. -/
def Keyed (table : OverloadTable) : Prop :=
  ∀ entry ∈ table.entries, entry.1 = table.caseRule.key entry.2.name

theorem keyed_addAt {rule : CaseRule} {entries : List (String × OverloadSet)}
    (h : ∀ entry ∈ entries, entry.1 = rule.key entry.2.name) (o : Overload) :
    ∀ entry ∈ addAt (rule.key o.name) o entries, entry.1 = rule.key entry.2.name := by
  induction entries with
  | nil => simp [addAt]
  | cons entry rest ih =>
    obtain ⟨hentry, hrest⟩ := List.forall_mem_cons.mp h
    rw [addAt]
    split
    · exact List.forall_mem_cons.mpr ⟨hentry, hrest⟩
    · exact List.forall_mem_cons.mpr ⟨hentry, ih hrest⟩

theorem get?_add (table : OverloadTable) (o : Overload) (name : String) :
    (table.add o).get? name
      = if table.caseRule.key name = table.caseRule.key o.name then
          some (.extend o (table.get? name))
        else table.get? name :=
  find?_addAt ..

/-! ## Adding several overloads -/

variable (rule : CaseRule) (overloads : List Overload)

theorem ofList_concat (o : Overload) :
    ofList rule (overloads ++ [o]) = (ofList rule overloads).add o := by
  rw [ofList, List.foldl_append]
  rfl

theorem keyed_ofList : (ofList rule overloads).Keyed := by
  induction overloads using List.reverseRecOn with
  | nil => exact fun _ hmem => absurd hmem List.not_mem_nil
  | append_singleton overloads o ih =>
    rw [ofList_concat]
    exact keyed_addAt ih o

/-- The set of a name. -/
theorem get?_ofList (name : String) : (ofList rule overloads).get? name
    = OverloadSet.ofList? (overloads.filter fun o => rule.key o.name = rule.key name) := by
  induction overloads using List.reverseRecOn with
  | nil => rfl
  | append_singleton overloads o ih =>
    rw [ofList_concat, get?_add, caseRule_ofList, List.filter_append]
    by_cases h : rule.key o.name = rule.key name
    · rw [if_pos h.symm, List.filter_cons_of_pos (by simpa using h), List.filter_nil,
        OverloadSet.ofList?_concat, ih]
    · rw [if_neg (Ne.symm h), List.filter_cons_of_neg (by simpa using h), List.filter_nil,
        List.append_nil, ih]

/-- The keys stand in the order in which they first occurred. -/
theorem keys_ofList : (ofList rule overloads).entries.map (·.1)
    = (overloads.map fun o => rule.key o.name).eraseDups := by
  induction overloads using List.reverseRecOn with
  | nil => rfl
  | append_singleton overloads o ih =>
    rw [ofList_concat, add, keys_addAt, caseRule_ofList, ih, List.map_append, List.map_singleton,
      eraseDups_concat]
    simp only [List.mem_eraseDups]

theorem perm_ofList : ((ofList rule overloads).toList.flatMap (·.overloads)).Perm overloads := by
  rw [toList, List.flatMap_map]
  induction overloads using List.reverseRecOn with
  | nil => exact .refl _
  | append_singleton overloads o ih =>
    rw [ofList_concat]
    exact (perm_addAt ..).trans (ih.append_right _)

/-- The entry of a key is the only one. -/
theorem find?_of_mem {entries : List (String × OverloadSet)} (hnodup : (entries.map (·.1)).Nodup)
    {entry : String × OverloadSet} (h : entry ∈ entries) :
    entries.find? (·.1 = entry.1) = some entry := by
  induction entries with
  | nil => exact absurd h List.not_mem_nil
  | cons first rest ih =>
    obtain ⟨hfirst, hrest⟩ := List.nodup_cons.mp hnodup
    rcases List.mem_cons.mp h with rfl | h
    · exact List.find?_cons_of_pos (by simp)
    · have hne : first.1 ≠ entry.1 := fun heq => hfirst (List.mem_map.mpr ⟨entry, h, heq.symm⟩)
      rw [List.find?_cons_of_neg (by simpa using hne)]
      exact ih hrest h

/-- A set is found by its name. -/
theorem get?_name_of_mem {set : OverloadSet} (h : set ∈ (ofList rule overloads).toList) :
    (ofList rule overloads).get? set.name = some set := by
  obtain ⟨entry, hentry, rfl⟩ := List.mem_map.mp h
  have hnodup : ((ofList rule overloads).entries.map (·.1)).Nodup := by
    rw [keys_ofList]
    exact nodup_eraseDups _
  rw [get?, ← keyed_ofList rule overloads entry hentry, find?_of_mem hnodup hentry]
  rfl

/-- What a table has of the overloads that were added to it, in this order. -/
structure Groups (table : OverloadTable) : Prop where
  /-- There is no set of a name if and only if no overload has its key. -/
  none_iff : ∀ name, table.get? name = none ↔ ∀ o ∈ overloads, rule.key o.name ≠ rule.key name
  /-- The set of a name has the overloads of its key, in the order in which they were added. -/
  overloads_eq : ∀ name set, table.get? name = some set →
    set.overloads = overloads.filter fun o => rule.key o.name = rule.key name
  /-- It is named as the first of these is written. -/
  name_eq : ∀ name set, table.get? name = some set →
    set.overloads.head?.map Overload.name = some set.name
  /-- There are as many sets as keys. -/
  size_eq : table.size = (overloads.map fun o => rule.key o.name).toFinset.card
  /-- The sets stand in the order in which their keys first occurred. -/
  order_eq : table.toList.map (fun set => rule.key set.name)
    = (overloads.map fun o => rule.key o.name).eraseDups
  /-- They are those found by their names. -/
  found : ∀ set ∈ table.toList, table.get? set.name = some set
  /-- Together they have every overload, as often as it was added. -/
  perm : (table.toList.flatMap (·.overloads)).Perm overloads

/-- For both case rules, and however the names follow one another. -/
theorem groups_ofList : Groups rule overloads (ofList rule overloads) where
  none_iff name := by
    rw [get?_ofList, OverloadSet.ofList?_eq_none_iff, List.filter_eq_nil_iff]
    simp
  overloads_eq name set h := by
    rw [get?_ofList] at h
    exact OverloadSet.overloads_of_ofList? h
  name_eq name set h := by
    rw [get?_ofList] at h
    rw [OverloadSet.overloads_of_ofList? h]
    exact OverloadSet.name_of_ofList? h
  size_eq := by
    rw [size, ← length_eraseDups, ← keys_ofList, List.length_map]
  order_eq := by
    rw [← keys_ofList, toList, List.map_map]
    refine List.map_congr_left fun entry hentry => ?_
    have hkey := keyed_ofList rule overloads entry hentry
    rw [caseRule_ofList] at hkey
    exact hkey.symm
  found set h := get?_name_of_mem rule overloads h
  perm := perm_ofList rule overloads

/-- Two spellings of one name, with another name between them. -/
example :
    let overloads := Builtin.instructions ["Rx", "H", "rX"] [[.qubit 1, .float]]
    (ofList .insensitive overloads).toList.map (fun set => (set.name, set.size))
      = [("Rx", 2), ("H", 1)] := by decide +kernel

end OverloadTable

end Cqasm
