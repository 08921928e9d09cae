/-
Descriptors grouped by kind.

A group holds the descriptors of one kind, at least one, in the order in which they came. `Groups`
are groups in ascending order of their tags, and `Groups.ofList` groups a sequence of descriptors.

* `withTag_insert_self`, `withTag_insert_of_ne` — what one more descriptor changes;
* `withTag_ofList` — the group of a tag is what the sequence has of it, in the order of the
  sequence.
-/
import LintDiscovery.Module.Descriptor

namespace LintDiscovery

/-- The descriptors of a kind. -/
structure Group (κ : Type) where
  tag : String
  members : List (Descriptor κ)
  members_ne_nil : members ≠ []
  tag_of_mem : ∀ d ∈ members, d.kind.tag = tag

namespace Group

variable {κ : Type}

/-- The group of one descriptor. -/
def single (d : Descriptor κ) : Group κ where
  tag := d.kind.tag
  members := [d]
  members_ne_nil := by simp
  tag_of_mem := by simp

/-- The group with one more descriptor at its end. -/
def push (g : Group κ) (d : Descriptor κ) (h : d.kind.tag = g.tag) : Group κ where
  tag := g.tag
  members := g.members ++ [d]
  members_ne_nil := by simp
  tag_of_mem x hx := by
    rcases List.mem_append.1 hx with hx | hx
    · exact g.tag_of_mem x hx
    · rw [List.mem_singleton.1 hx, h]

/-- The group with other timings for the descriptor at an index. -/
def retime (g : Group κ) (index : Nat) (t : Timings) : Group κ where
  tag := g.tag
  members := g.members.modify index (Descriptor.retime t)
  members_ne_nil := by
    rw [ne_eq, ← List.length_eq_zero_iff, List.length_modify, List.length_eq_zero_iff]
    exact g.members_ne_nil
  tag_of_mem x hx := by
    obtain ⟨i, hi⟩ := List.getElem?_of_mem hx
    rw [List.getElem?_modify] at hi
    obtain ⟨d, hd, rfl⟩ := Option.map_eq_some_iff.1 hi
    have hmem := g.tag_of_mem d (List.mem_of_getElem? hd)
    split
    · exact hmem
    · exact hmem

end Group

/-- Groups, one for each tag, in the order of the tags. -/
structure Groups (κ : Type) where
  toList : List (Group κ)
  ascending : toList.Pairwise fun a b => a.tag < b.tag

namespace Groups

variable {κ : Type}

/-- No groups. -/
def empty : Groups κ := ⟨[], .nil⟩

/-- The members of the group of a tag. -/
def membersOf (tag : String) : List (Group κ) → List (Descriptor κ)
  | [] => []
  | g :: rest => if g.tag = tag then g.members else membersOf tag rest

/-- The descriptors under a tag. -/
def withTag (g : Groups κ) (tag : String) : List (Descriptor κ) :=
  membersOf tag g.toList

/-- The descriptors of a kind. -/
def ofKind (g : Groups κ) (kind : Kind) : List (Descriptor κ) :=
  g.withTag kind.tag

/-- All descriptors, group after group. -/
def descriptors (g : Groups κ) : List (Descriptor κ) :=
  g.toList.flatMap Group.members

/-- The number of descriptors. -/
def size (g : Groups κ) : Nat :=
  g.descriptors.length

/-! ### One more descriptor -/

/-- Puts a descriptor at the end of its group, which is opened in its place where need be. -/
def insertInto (d : Descriptor κ) : List (Group κ) → List (Group κ)
  | [] => [.single d]
  | g :: rest =>
    if h : d.kind.tag = g.tag then g.push d h :: rest
    else if d.kind.tag < g.tag then .single d :: g :: rest
    else g :: insertInto d rest

theorem tag_eq_or_mem_of_mem_insertInto {d : Descriptor κ} {g : Group κ} {l : List (Group κ)}
    (h : g ∈ insertInto d l) : g.tag = d.kind.tag ∨ ∃ x ∈ l, x.tag = g.tag := by
  induction l with
  | nil =>
    rw [insertInto, List.mem_singleton] at h
    exact .inl (by rw [h, Group.single])
  | cons x rest ih =>
    rw [insertInto] at h
    split at h
    · rename_i heq
      rcases List.mem_cons.1 h with rfl | h
      · exact .inl heq.symm
      · exact .inr ⟨g, by simp [h], rfl⟩
    · split at h
      · rcases List.mem_cons.1 h with rfl | h
        · exact .inl rfl
        · exact .inr ⟨g, h, rfl⟩
      · rcases List.mem_cons.1 h with rfl | h
        · exact .inr ⟨g, by simp, rfl⟩
        · refine (ih h).imp_right fun ⟨y, hy, ht⟩ => ⟨y, by simp [hy], ht⟩

theorem ascending_insertInto (d : Descriptor κ) {l : List (Group κ)}
    (h : l.Pairwise fun a b => a.tag < b.tag) :
    (insertInto d l).Pairwise fun a b => a.tag < b.tag := by
  induction l with
  | nil => simp [insertInto]
  | cons x rest ih =>
    obtain ⟨hx, hrest⟩ := List.pairwise_cons.1 h
    rw [insertInto]
    split
    · exact .cons (fun y hy => hx y hy) hrest
    · split
      · rename_i hlt
        refine .cons (fun y hy => ?_) h
        rcases List.mem_cons.1 hy with rfl | hy
        · exact hlt
        · exact String.lt_trans hlt (hx y hy)
      · rename_i hne hlt
        refine .cons (fun y hy => ?_) (ih hrest)
        rcases tag_eq_or_mem_of_mem_insertInto hy with ht | ⟨z, hz, ht⟩
        · rw [ht]
          grind
        · exact ht ▸ hx z hz

theorem membersOf_insertInto_of_ne {d : Descriptor κ} {tag : String} (h : d.kind.tag ≠ tag)
    (l : List (Group κ)) : membersOf tag (insertInto d l) = membersOf tag l := by
  induction l with
  | nil => simp [insertInto, membersOf, Group.single, h]
  | cons x rest ih =>
    rw [insertInto]
    split
    · rename_i heq
      have hx : x.tag ≠ tag := heq ▸ h
      simp [membersOf, Group.push, hx]
    · split
      · simp [membersOf, Group.single, h]
      · simp [membersOf, ih]

theorem membersOf_eq_nil {tag : String} {l : List (Group κ)} (h : ∀ g ∈ l, tag < g.tag) :
    membersOf tag l = [] := by
  induction l with
  | nil => rfl
  | cons x rest ih =>
    have hx : x.tag ≠ tag := fun heq => String.lt_irrefl tag (heq ▸ h x (by simp))
    rw [membersOf, if_neg hx, ih fun g hg => h g (by simp [hg])]

theorem membersOf_insertInto_self (d : Descriptor κ) {l : List (Group κ)}
    (h : l.Pairwise fun a b => a.tag < b.tag) :
    membersOf d.kind.tag (insertInto d l) = membersOf d.kind.tag l ++ [d] := by
  induction l with
  | nil => simp [insertInto, membersOf, Group.single]
  | cons x rest ih =>
    obtain ⟨hx, hrest⟩ := List.pairwise_cons.1 h
    rw [insertInto]
    split
    · rename_i heq
      simp [membersOf, Group.push, ← heq]
    · split
      · rename_i hne hlt
        have hnil : membersOf d.kind.tag (x :: rest) = [] := by
          refine membersOf_eq_nil fun g hg => ?_
          rcases List.mem_cons.1 hg with rfl | hg
          · exact hlt
          · exact String.lt_trans hlt (hx g hg)
        rw [hnil]
        simp [membersOf, Group.single]
      · rename_i hne hlt
        have hx : x.tag ≠ d.kind.tag := fun heq => hne heq.symm
        simp only [membersOf, if_neg hx]
        exact ih hrest

/-- The groups with one more descriptor. -/
def insert (g : Groups κ) (d : Descriptor κ) : Groups κ :=
  ⟨insertInto d g.toList, ascending_insertInto d g.ascending⟩

/-- A descriptor goes to the end of its group. -/
theorem withTag_insert_self (g : Groups κ) (d : Descriptor κ) :
    (g.insert d).withTag d.kind.tag = g.withTag d.kind.tag ++ [d] :=
  membersOf_insertInto_self d g.ascending

/-- A descriptor leaves the other groups alone. -/
theorem withTag_insert_of_ne (g : Groups κ) {d : Descriptor κ} {tag : String}
    (h : d.kind.tag ≠ tag) : (g.insert d).withTag tag = g.withTag tag :=
  membersOf_insertInto_of_ne h g.toList

/-! ### Sequences -/

/-- The groups of a sequence of descriptors. -/
def ofList (ds : List (Descriptor κ)) : Groups κ :=
  ds.foldl insert empty

theorem withTag_foldl_insert (ds : List (Descriptor κ)) (g : Groups κ) (tag : String) :
    (ds.foldl insert g).withTag tag =
      g.withTag tag ++ ds.filter (fun d => d.kind.tag = tag) := by
  induction ds generalizing g with
  | nil => simp
  | cons d rest ih =>
    rw [List.foldl_cons, ih]
    by_cases h : d.kind.tag = tag
    · subst h
      simp [withTag_insert_self]
    · simp [withTag_insert_of_ne g h, h]

/-- The group of a tag is the part of the sequence that has it. -/
theorem withTag_ofList (ds : List (Descriptor κ)) (tag : String) :
    (ofList ds).withTag tag = ds.filter (fun d => d.kind.tag = tag) := by
  rw [ofList, withTag_foldl_insert]
  rfl

/-! ### Timings -/

/-- The groups with other timings for the descriptor at an index under a tag. -/
def retime (g : Groups κ) (tag : String) (index : Nat) (t : Timings) : Groups κ where
  toList := g.toList.map fun x => if x.tag = tag then x.retime index t else x
  ascending := by
    refine List.pairwise_map.2 (g.ascending.imp fun {a b} h => ?_)
    have htag : ∀ x : Group κ, (if x.tag = tag then x.retime index t else x).tag = x.tag := by
      intro x
      split <;> rfl
    rw [htag, htag]
    exact h

end Groups

end LintDiscovery
