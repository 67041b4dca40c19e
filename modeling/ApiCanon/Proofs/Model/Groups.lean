import ApiCanon.Model.Ast
import ApiCanon.Proofs.Collection.KeyedList

/-!
# Groups of endpoints

Endpoints are grouped one after another: each goes to the end of its group, which is looked for
among those that are there and opened behind them if there is none.  What this comes to is a table
(`foldl_addToGroup`): the names in the order of their first endpoints, and beside each the endpoints
of that name.  So the groups are an ordered partition (`groupedEndpoints_partition`), whatever the
tags are; an endpoint with the default for its tag is in one group with those that have no tag.
-/

namespace ApiCanon

/-- The name of the group of an endpoint: its first tag, or the default if it has no tags. -/
def Endpoint.groupName (default : String) (e : Endpoint) : String :=
  match e.tags with
  | [] => default
  | tag :: _ => tag

lemma Endpoint.group?_getD (default : String) (e : Endpoint) :
    e.group?.getD default = e.groupName default := by
  rw [group?, groupName]
  cases e.tags <;> rfl

namespace Ast

/-- Groups with names, as they are listed. -/
abbrev Groups := List (String × List Endpoint)

/-- Endpoints are grouped by name. -/
structure Partition (name : Endpoint → String) (es : List Endpoint) (groups : Groups) : Prop where
  distinct : (groups.map Prod.fst).Nodup
  /-- Names stand in the order of their first endpoints. -/
  order : (groups.map Prod.fst).Pairwise fun g h => (es.map name).idxOf g < (es.map name).idxOf h
  members : ∀ g ∈ groups, g.2 = es.filter fun e => name e = g.1
  filled : ∀ g ∈ groups, g.2 ≠ []
  once : ∀ e ∈ es, ∃! g, g ∈ groups ∧ e ∈ g.2
  /-- No endpoint is lost or doubled, also where several are the same. -/
  whole : (groups.flatMap Prod.snd).Perm es

/-! ## One endpoint after another -/

variable (name : Endpoint → String)

/-- The groups of some names. -/
def table (es : List Endpoint) (names : List String) : Groups :=
  names.map fun g => (g, es.filter fun e => name e = g)

@[simp] lemma map_fst_table (es : List Endpoint) (names : List String) :
    (table name es names).map Prod.fst = names := by
  rw [table, List.map_map]
  exact List.map_id names

/-- An endpoint without a group opens one at the end. -/
lemma addToGroup_of_not_mem {g : String} {groups : Groups} (fresh : g ∉ groups.map Prod.fst)
    (e : Endpoint) : addToGroup g e groups = groups ++ [(g, [e])] := by
  induction groups with
  | nil => rfl
  | cons h groups ih =>
    rw [List.map_cons, List.mem_cons, not_or] at fresh
    rw [addToGroup, if_neg (Ne.symm fresh.1), ih fresh.2, List.cons_append]

/-- An endpoint of another name leaves the groups as they are. -/
lemma table_concat_of_not_mem {e : Endpoint} {names : List String} (other : name e ∉ names)
    (es : List Endpoint) : table name (es ++ [e]) names = table name es names := by
  refine List.map_congr_left fun g hg => ?_
  have apart : name e ≠ g := fun same => other (same ▸ hg)
  rw [List.filter_append, List.filter_singleton, decide_eq_false apart, cond_false,
    List.append_nil]

/-- An endpoint joins its group at the end. -/
lemma addToGroup_table {e : Endpoint} {names : List String} (distinct : names.Nodup)
    (known : name e ∈ names) (es : List Endpoint) :
    addToGroup (name e) e (table name es names) = table name (es ++ [e]) names := by
  induction names with
  | nil => cases known
  | cons g names ih =>
    obtain ⟨single, distinct⟩ := List.nodup_cons.1 distinct
    rw [table, table, List.map_cons, List.map_cons, addToGroup, ← table, ← table]
    by_cases here : g = name e
    · subst here
      rw [if_pos rfl, table_concat_of_not_mem name single, List.filter_append,
        List.filter_singleton, decide_eq_true rfl, cond_true]
    · have apart : name e ≠ g := Ne.symm here
      rw [if_neg here, ih distinct ((List.mem_cons.1 known).resolve_left apart), List.filter_append,
        List.filter_singleton, decide_eq_false apart, cond_false, List.append_nil]

/-- **What grouping comes to.**  The groups are those of the names that occur, in the order in which
they occur first. -/
theorem foldl_addToGroup (es : List Endpoint) :
    es.foldl (fun groups e => addToGroup (name e) e groups) [] =
      table name es (firstsBy id (es.map name)) := by
  induction es using List.reverseRecOn with
  | nil => rfl
  | append_singleton es e ih =>
    have listed : name e ∈ firstsBy id (es.map name) ↔ name e ∈ es.map name := by
      simpa using mem_map_firstsBy_iff id (es.map name) (name e)
    have distinct : (firstsBy id (es.map name)).Nodup := by
      simpa using nodup_map_firstsBy id (es.map name)
    rw [List.foldl_concat, ih, List.map_append, List.map_singleton, firstsBy_concat, List.map_id]
    by_cases known : name e ∈ es.map name
    · rw [if_pos (id_eq (name e) ▸ known), List.append_nil,
        addToGroup_table name distinct (listed.2 known)]
    · have fresh : name e ∉ firstsBy id (es.map name) := mt listed.1 known
      have alone : es.filter (fun f => name f = name e) = [] :=
        List.filter_eq_nil_iff.2 fun f hf same =>
          known (List.mem_map.2 ⟨f, hf, of_decide_eq_true same⟩)
      rw [if_neg (id_eq (name e) ▸ known), addToGroup_of_not_mem (by rwa [map_fst_table]), table,
        table, List.map_append, List.map_singleton, List.filter_append, alone, List.nil_append,
        List.filter_singleton, decide_eq_true rfl, cond_true]
      exact congrArg (· ++ _) (table_concat_of_not_mem name fresh es).symm

/-- An endpoint that is added is one more member. -/
lemma addToGroup_perm (g : String) (e : Endpoint) (groups : Groups) :
    ((addToGroup g e groups).flatMap Prod.snd).Perm (groups.flatMap Prod.snd ++ [e]) := by
  induction groups with
  | nil => exact List.Perm.refl _
  | cons h groups ih =>
    rw [addToGroup]
    split_ifs
    · rw [List.flatMap_cons, List.flatMap_cons, List.append_assoc, List.append_assoc]
      exact List.perm_append_comm.append_left h.2
    · rw [List.flatMap_cons, List.flatMap_cons, List.append_assoc]
      exact ih.append_left h.2

/-- All endpoints are in the table. -/
lemma table_perm (es : List Endpoint) :
    ((table name es (firstsBy id (es.map name))).flatMap Prod.snd).Perm es := by
  rw [← foldl_addToGroup]
  induction es using List.reverseRecOn with
  | nil => exact List.Perm.refl _
  | append_singleton es e ih =>
    rw [List.foldl_concat]
    exact (addToGroup_perm _ e _).trans (ih.append_right [e])

/-! ## The groups as a whole -/

lemma partition_table (es : List Endpoint) :
    Partition name es (table name es (firstsBy id (es.map name))) where
  distinct := by
    rw [map_fst_table]
    simpa using nodup_map_firstsBy id (es.map name)
  order := by
    rw [map_fst_table]
    exact pairwise_idxOf_firstsBy (es.map name)
  members := by
    intro g hg
    obtain ⟨n, -, rfl⟩ := List.mem_map.1 hg
    rfl
  filled := by
    intro g hg
    obtain ⟨n, hn, rfl⟩ := List.mem_map.1 hg
    obtain ⟨e, he, named⟩ := List.mem_map.1 (firstsBy_subset id (es.map name) hn)
    exact List.ne_nil_of_mem (List.mem_filter.2 ⟨he, decide_eq_true named⟩)
  once := by
    intro e he
    have named : name e ∈ firstsBy id (es.map name) := by
      simpa using (mem_map_firstsBy_iff id (es.map name) (name e)).2
        (by simpa using ⟨e, he, rfl⟩)
    refine ⟨_, ⟨List.mem_map.2 ⟨name e, named, rfl⟩, ?_⟩, ?_⟩
    · exact List.mem_filter.2 ⟨he, decide_eq_true rfl⟩
    · rintro g ⟨hg, mem⟩
      obtain ⟨n, -, rfl⟩ := List.mem_map.1 hg
      obtain rfl : name e = n := of_decide_eq_true (List.mem_filter.1 mem).2
      rfl
  whole := table_perm name es

/-- **Grouping is an ordered partition.**  The names of the groups are distinct and stand in the
order of their first endpoints; each group has, in their order, exactly the endpoints whose first
tag, or the default without one, is its name; no group is empty, and every endpoint is in exactly
one. -/
theorem groupedEndpoints_partition (a : Ast) (default : String) :
    Partition (Endpoint.groupName default) a.endpoints (a.groupedEndpoints default) := by
  have named : a.groupedEndpoints default = a.endpoints.foldl
      (fun groups e => addToGroup (e.groupName default) e groups) [] := by
    simp only [groupedEndpoints, Endpoint.group?_getD]
  rw [named, foldl_addToGroup]
  exact partition_table _ a.endpoints

end Ast

end ApiCanon
