/-
**How usages are stored.**

A table keeps one list of usages for each kind and key. All the lists together hold each record that was
made, as often as it was made, and each of them is in order.

* `UsageTable.stored`: the usages of all kinds and keys;
* `stored_perm`: they are the records of the table, so `total` counts them;
* `pairwise_get`: the usages of a key ascend;
* `Usage.inOrder_eq_of_mem_iff`: two lists of the same usages are the same in order.
-/

import ArtifactIndex.Proofs.Ordered
import ArtifactIndex.Usage.Basic
import Mathlib.Data.List.Perm.Basic
import Mathlib.Order.Basic

namespace ArtifactIndex

/-! ### All kinds and keys -/

namespace UsageTable

/-- The kinds and keys that have usages. -/
def addresses (table : UsageTable) : List (Kind × String) :=
  (table.records.map fun record => (record.kind, record.key)).eraseDups

/-- **The stored usages**: those of each kind and key, one list behind the other. -/
def stored (table : UsageTable) : List UsageRecord :=
  table.addresses.flatMap fun address =>
    (table.get address.1 address.2).map (UsageRecord.mk address.1 address.2)

end UsageTable

/-- The members with one of some distinct labels, label by label. By induction on the labels: what has
the first of them is taken out. -/
theorem flatMap_filter_perm {α β : Type} [BEq β] [LawfulBEq β] (label : α → β) {labels : List β}
    (distinct : labels.Nodup) (list : List α) :
    (labels.flatMap fun name => list.filter fun member => label member == name).Perm
      (list.filter fun member => labels.contains (label member)) := by
  induction labels with
  | nil => simp
  | cons first rest ih =>
    obtain ⟨fresh, distinct⟩ := List.nodup_cons.mp distinct
    have here : (list.filter fun member => (first :: rest).contains (label member)).filter
        (fun member => label member == first) = list.filter fun member => label member == first := by
      rw [List.filter_filter]
      refine List.filter_congr fun member _ => ?_
      rw [List.contains_cons, Bool.and_or_distrib_left, Bool.and_self, Bool.or_eq_left_iff_imp,
        Bool.and_eq_true]
      exact And.left
    have later : (list.filter fun member => (first :: rest).contains (label member)).filter
        (fun member => !(label member == first)) =
          list.filter fun member => rest.contains (label member) := by
      rw [List.filter_filter]
      refine List.filter_congr fun member _ => ?_
      rw [List.contains_cons]
      cases same : label member == first with
      | false => rfl
      | true =>
        rw [eq_of_beq same]
        simpa using fresh
    rw [List.flatMap_cons, ← here]
    exact (((ih distinct).trans (.of_eq later.symm)).append_left _).trans (List.filter_append_perm _ _)

/-- Of blocks with distinct labels, put one behind the other, those members have a label that stand in
its block. -/
theorem filter_flatMap_of_labelled {α β : Type} [BEq β] [LawfulBEq β] (label : α → β) {labels : List β}
    {block : β → List α} (distinct : labels.Nodup)
    (labelled : ∀ name, ∀ member ∈ block name, label member = name) {name : β} :
    (labels.flatMap block).filter (label · == name) = if name ∈ labels then block name else [] := by
  induction labels with
  | nil => rfl
  | cons first rest ih =>
    obtain ⟨fresh, distinct⟩ := List.nodup_cons.mp distinct
    rw [List.flatMap_cons, List.filter_append, ih distinct]
    by_cases same : name = first
    · subst same
      have here : (block name).filter (label · == name) = block name :=
        List.filter_eq_self.mpr fun member isMember => beq_iff_eq.mpr (labelled name member isMember)
      rw [here, if_neg fresh, if_pos List.mem_cons_self, List.append_nil]
    · have here : (block first).filter (label · == name) = [] := by
        refine List.filter_eq_nil_iff.mpr fun member isMember isLabelled => ?_
        rw [beq_iff_eq, labelled first member isMember] at isLabelled
        exact same isLabelled.symm
      simp only [here, List.nil_append, List.mem_cons, same, false_or]

namespace UsageTable

variable (table : UsageTable)

/-- **The stored usages of a key** are the key's list. -/
theorem filter_stored (kind : Kind) (key : String) :
    (table.stored.filter fun record => (record.kind, record.key) == (kind, key)).map (·.usage) =
      table.get kind key := by
  have labelled : ∀ address : Kind × String, ∀ record ∈
      (table.get address.1 address.2).map (UsageRecord.mk address.1 address.2),
        (record.kind, record.key) = address := by
    intro address record listed
    obtain ⟨usage, -, rfl⟩ := List.mem_map.mp listed
    rfl
  have distinct : table.addresses.Nodup := nodup_eraseDups _
  unfold stored
  rw [filter_flatMap_of_labelled (fun record : UsageRecord => (record.kind, record.key)) distinct labelled]
  split
  · rw [List.map_map]
    exact List.map_id _
  · next absent =>
    -- A kind and key without records have no list.
    have none : table.records.filter (fun record => record.kind == kind && record.key == key) = [] := by
      refine List.filter_eq_nil_iff.mpr fun record isRecord same => absent ?_
      rw [Bool.and_eq_true, beq_iff_eq, beq_iff_eq] at same
      obtain ⟨rfl, rfl⟩ := same
      rw [addresses, List.mem_eraseDups]
      exact List.mem_map_of_mem isRecord
    rw [get, none]
    rfl

/-- **The stored usages are the records**, each as often as it was made. -/
theorem stored_perm : table.stored.Perm table.records := by
  have perKey : ∀ address ∈ table.addresses,
      ((table.get address.1 address.2).map (UsageRecord.mk address.1 address.2)).Perm
        (table.records.filter fun record => (record.kind, record.key) == address) := by
    rintro ⟨kind, key⟩ -
    refine ((sortBy_perm _).map _).trans (.of_eq ?_)
    rw [List.map_map]
    refine (List.map_congr_left fun record kept => ?_).trans (List.map_id _)
    have same := (List.mem_filter.mp kept).2
    rw [Bool.and_eq_true, beq_iff_eq, beq_iff_eq] at same
    obtain ⟨rfl, rfl⟩ := same
    rfl
  have all : (table.records.filter fun record =>
      table.addresses.contains (record.kind, record.key)) = table.records := by
    refine List.filter_eq_self.mpr fun record listed => ?_
    rw [List.contains_iff_mem, addresses, List.mem_eraseDups]
    exact List.mem_map_of_mem listed
  have grouped := flatMap_filter_perm (fun record : UsageRecord => (record.kind, record.key))
    (nodup_eraseDups (table.records.map fun record => (record.kind, record.key))) table.records
  exact (List.Perm.flatMap_left _ perKey).trans (grouped.trans (.of_eq all))

variable {table} in
theorem mem_stored {record : UsageRecord} : record ∈ table.stored ↔ record ∈ table.records :=
  table.stored_perm.mem_iff

/-- The stored usages are counted. -/
theorem length_stored : table.stored.length = table.total := table.stored_perm.length_eq

end UsageTable

/-! ### The order of usages -/

/-- Sites are compared field by field. -/
theorem Site.order_eq : Site.order =
    compareLex (compareOn Site.file) (compareLex (compareOn Site.line)
      (compareLex (compareOn Site.start) (compareLex (compareOn Site.stop)
        (compareOn Site.expansion)))) := by
  funext left right
  obtain ⟨_, _, _, _, first⟩ := left
  obtain ⟨_, _, _, _, second⟩ := right
  cases first <;> cases second <;> rfl

theorem Site.transCmp_order : Std.TransCmp Site.order := by
  rw [Site.order_eq]
  infer_instance

/-- Usages are compared field by field. -/
theorem Usage.order_eq : Usage.order =
    compareLex (compareOn Usage.file) (compareLex (compareOn Usage.line)
      (compareLex (fun left right => Site.order left.site right.site)
        (compareOn (·.usageKind.rank)))) := rfl

theorem Usage.transCmp_order : Std.TransCmp Usage.order := by
  have sites := Site.transCmp_order
  have bySite : Std.TransCmp fun left right : Usage => Site.order left.site right.site :=
    { eq_swap := sites.eq_swap
      isLE_trans := sites.isLE_trans }
  rw [Usage.order_eq]
  infer_instance

/-- Two sites of which neither comes before the other are the same. -/
theorem Site.eq_of_order_eq {left right : Site} (same : left.order right = .eq) : left = right := by
  simp only [Site.order_eq, compareLex_eq_eq, compareOn, Std.compare_eq_iff_eq] at same
  obtain ⟨file, line, start, stop, expansion⟩ := same
  exact (Site.mk.injEq ..).mpr ⟨file, line, start, stop, expansion⟩

theorem Usage.eq_of_order_eq {left right : Usage} (same : left.order right = .eq) : left = right := by
  simp only [Usage.order_eq, compareLex_eq_eq, compareOn, Std.compare_eq_iff_eq] at same
  obtain ⟨file, line, site, rank⟩ := same
  have usageKind : left.usageKind = right.usageKind := by
    revert rank
    cases left.usageKind <;> cases right.usageKind <;> decide
  exact (Usage.mk.injEq ..).mpr ⟨file, line, Site.eq_of_order_eq site, usageKind⟩

/-- Usages in their order ascend. -/
theorem Usage.pairwise_inOrder (usages : List Usage) :
    (Usage.inOrder usages).Pairwise fun left right => (left.order right).isLE = true := by
  have lawful := Usage.transCmp_order
  refine pairwise_sortBy (fun left right above => ?_) (fun _ _ _ => Std.TransCmp.isLE_trans) _
  have swapped : right.order left = (left.order right).swap := Std.OrientedCmp.eq_swap
  rw [swapped, Ordering.isLE_eq_false.mp above]
  rfl

/-- **The usages of a key ascend.** -/
theorem UsageTable.pairwise_get (table : UsageTable) (kind : Kind) (key : String) :
    (table.get kind key).Pairwise fun left right => (left.order right).isLE = true :=
  Usage.pairwise_inOrder _

/-- **The order of a list of usages is settled by its members**, each of them listed once: usages that
come neither before nor behind each other are the same. -/
theorem Usage.inOrder_eq_of_mem_iff {left right : List Usage} (leftOnce : left.Nodup)
    (rightOnce : right.Nodup) (members : ∀ usage, usage ∈ left ↔ usage ∈ right) :
    Usage.inOrder left = Usage.inOrder right := by
  have lawful := Usage.transCmp_order
  have rearranged : (Usage.inOrder left).Perm (Usage.inOrder right) :=
    (sortBy_perm left).trans (((List.perm_ext_iff_of_nodup leftOnce rightOnce).mpr members).trans
      (sortBy_perm right).symm)
  refine rearranged.eq_of_pairwise (fun first second _ _ below above => ?_)
    (pairwise_inOrder left) (pairwise_inOrder right)
  exact eq_of_order_eq (Std.OrientedCmp.isLE_antisymm below above)

end ArtifactIndex
