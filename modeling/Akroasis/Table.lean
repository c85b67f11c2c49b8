import Mathlib.Algebra.Order.Group.Multiset
import Mathlib.Data.List.AList
import Mathlib.Data.List.Flatten

/-!
# Akroasis.Table

Finite maps with the operations of a hash map: lookup, insert, remove, update in place,
retain, and counting the entries that satisfy a predicate.

A table is an association list without repeated keys, so that everything computes; the
lemmas speak of `lookup`, of `count` and of the keys, never of the list.  Removing an
entry is undone by putting it back in front (`perm_cons_erase`), which gives every
counting lemma.  The module names nothing of the repository.
-/

namespace Akroasis

/-- A finite map. -/
abbrev Table (K V : Type*) := AList (fun _ : K => V)

namespace Table

variable {K V : Type*} {t : Table K V} {k : K} {v : V}

/-- Keep the entries that satisfy `p`. -/
def retain (t : Table K V) (p : K → V → Bool) : Table K V where
  entries := t.entries.filter fun e => p e.1 e.2
  nodupKeys := t.nodupKeys.sublist List.filter_sublist

/-- Change every value. -/
def mapValues (t : Table K V) (f : K → V → V) : Table K V where
  entries := t.entries.map (.map id f)
  nodupKeys := t.nodupKeys.map₂ f t.entries

/-- The number of entries that satisfy `p`. -/
def count (t : Table K V) (p : K → V → Bool) : Nat := t.entries.countP fun e => p e.1 e.2

/-- What the values hold, taken together. -/
def gather {A : Type*} (t : Table K V) (f : V → List A) : Multiset A :=
  (t.entries.flatMap fun e => f e.2 : List A)

/-- The entries as pairs. -/
def pairs (t : Table K V) : List (K × V) := t.entries.map fun e => (e.1, e.2)

/-- An order in which the entries of a table are visited; it may be any. -/
structure Iteration (K V : Type*) where
  order : List (K × V) → List (K × V)
  perm : ∀ l, (order l).Perm l

/-- The entries in the order of a visit. -/
def visit (t : Table K V) (it : Iteration K V) : List (K × V) := it.order t.pairs

/-- The number of entries. -/
def size (t : Table K V) : Nat := t.entries.length

theorem size_eq_count (t : Table K V) : t.size = t.count fun _ _ => true := by
  simp [size, count]

theorem length_keys (t : Table K V) : t.keys.length = t.size := by
  simp [AList.keys, List.keys, size]

theorem count_retain (t : Table K V) (p q : K → V → Bool) :
    (t.retain p).count q = t.count fun k v => q k v && p k v := by
  simp [retain, count, List.countP_filter]

theorem count_mapValues (t : Table K V) (f : K → V → V) (p : K → V → Bool) :
    (t.mapValues f).count p = t.count fun k v => p k (f k v) := by
  simp only [mapValues, count, List.countP_map]
  rfl

theorem size_retain_le (t : Table K V) (p : K → V → Bool) : (t.retain p).size ≤ t.size :=
  List.length_filter_le _ _

theorem size_mapValues (t : Table K V) (f : K → V → V) : (t.mapValues f).size = t.size :=
  List.length_map ..

/-- Retaining splits the keys into those kept and those dropped. -/
theorem keys_retain_add (t : Table K V) (p : K → V → Bool) :
    ((t.retain p).keys : Multiset K) + ((t.retain fun k v => !p k v).keys : Multiset K) =
      (t.keys : Multiset K) := by
  simp only [AList.keys, List.keys, retain, Multiset.coe_add, ← List.map_append]
  exact Multiset.coe_eq_coe.mpr ((List.filter_append_perm _ t.entries).map Sigma.fst)

/-- The entries of a table counted in two ways that differ by a third. -/
theorem count_add (t : Table K V) {p q r : K → V → Bool}
    (h : ∀ k v, (if p k v then 1 else 0) + (if q k v then 1 else 0) = if r k v then 1 else 0) :
    t.count p + t.count q = t.count r := by
  unfold count
  induction t.entries with
  | nil => rfl
  | cons e l ih =>
      have := h e.1 e.2
      simp only [List.countP_cons]
      omega

section

variable {A : Type*}

theorem gather_mapValues (t : Table K V) (g : V → V) (f : V → List A) :
    (t.mapValues fun _ => g).gather f = t.gather fun v => f (g v) := by
  simp only [gather, mapValues, List.flatMap_map]
  rfl

/-- If each value's holdings split in two, so do all of them. -/
theorem gather_add (t : Table K V) {f g h : V → List A}
    (hsplit : ∀ v, (f v : Multiset A) + (g v : Multiset A) = (h v : Multiset A)) :
    t.gather f + t.gather g = t.gather h := by
  unfold gather
  induction t.entries with
  | nil => rfl
  | cons e l ih =>
      simp only [List.flatMap_cons, ← Multiset.coe_add]
      rw [← ih, ← hsplit, add_add_add_comm]

/-- What the entries that are kept hold was held before. -/
theorem gather_retain_le (t : Table K V) (p : K → V → Bool) (f : V → List A) :
    (t.retain p).gather f ≤ t.gather f :=
  Multiset.coe_le.mpr (List.filter_sublist.flatMap _).subperm

/-- Entries that hold nothing do not matter. -/
theorem gather_retain (t : Table K V) (p : K → V → Bool) (f : V → List A)
    (h : ∀ k v, p k v = false → f v = []) : (t.retain p).gather f = t.gather f := by
  change ((t.entries.filter fun e => p e.1 e.2).flatMap fun e => f e.2 : Multiset A) =
    (t.entries.flatMap fun e => f e.2 : List A)
  induction t.entries with
  | nil => rfl
  | cons e l ih =>
      cases hp : p e.1 e.2 with
      | true =>
          simp only [List.filter_cons, hp, if_true, List.flatMap_cons, ← Multiset.coe_add] at ih ⊢
          rw [ih]
      | false =>
          simp only [List.filter_cons, hp, Bool.false_eq_true, if_false, List.flatMap_cons,
            h e.1 e.2 hp, List.nil_append] at ih ⊢
          exact ih

end

variable [DecidableEq K]

theorem lookup_insert_ite (t : Table K V) (k m : K) (v : V) :
    AList.lookup m (t.insert k v) = if m = k then some v else t.lookup m := by
  by_cases h : m = k
  · subst h; simp
  · rw [if_neg h, AList.lookup_insert_ne h]

theorem lookup_erase_ite (t : Table K V) (k m : K) :
    AList.lookup m (t.erase k) = if m = k then none else t.lookup m := by
  by_cases h : m = k
  · subst h; simp
  · rw [if_neg h, AList.lookup_erase_ne h]

theorem mem_keys_iff (t : Table K V) (k : K) : k ∈ t.keys ↔ ∃ v, t.lookup k = some v := by
  rw [← AList.mem_keys, ← AList.lookup_isSome, Option.isSome_iff_exists]

theorem lookup_eq_some_iff :
    t.lookup k = some v ↔ ⟨k, v⟩ ∈ t.entries := AList.mem_lookup_iff

theorem mem_pairs : (k, v) ∈ t.pairs ↔ t.lookup k = some v := by
  rw [lookup_eq_some_iff, pairs, List.mem_map]
  constructor
  · intro h
    obtain ⟨e, hmem, heq⟩ := h
    obtain ⟨rfl, rfl⟩ := Prod.mk.inj heq
    exact hmem
  · exact fun hmem => ⟨⟨k, v⟩, hmem, rfl⟩

theorem mem_visit {it : Iteration K V} :
    (k, v) ∈ t.visit it ↔ t.lookup k = some v :=
  (it.perm t.pairs).mem_iff.trans mem_pairs

omit [DecidableEq K] in
theorem nodup_pairs (t : Table K V) : t.pairs.Nodup := by
  refine List.Nodup.of_map Prod.fst ?_
  rw [pairs, List.map_map]
  exact t.nodupKeys

theorem lookup_retain (t : Table K V) (p : K → V → Bool) (k : K) :
    AList.lookup k (t.retain p) = (t.lookup k).filter (p k) := by
  ext v
  rw [lookup_eq_some_iff, Option.filter_eq_some_iff, lookup_eq_some_iff, retain, List.mem_filter]

theorem lookup_mapValues (t : Table K V) (f : K → V → V) (k : K) :
    AList.lookup k (t.mapValues f) = (t.lookup k).map (f k) :=
  List.dlookup_map₂ k

/-- Update the value at `k`, if there is one. -/
def modify (t : Table K V) (k : K) (f : V → V) : Table K V :=
  match t.lookup k with
  | none => t
  | some v => t.insert k (f v)

theorem modify_of_none (h : t.lookup k = none) (f : V → V) :
    t.modify k f = t := by
  simp only [modify, h]

theorem modify_of_some (h : t.lookup k = some v) (f : V → V) :
    t.modify k f = t.insert k (f v) := by
  simp only [modify, h]

theorem lookup_modify (t : Table K V) (k m : K) (f : V → V) :
    AList.lookup m (t.modify k f) = if m = k then (t.lookup k).map f else t.lookup m := by
  cases h : t.lookup k with
  | none =>
      rw [modify_of_none h]
      split
      · next heq => rw [heq, h]; rfl
      · rfl
  | some v => rw [modify_of_some h, lookup_insert_ite]; rfl

/-- An entry can be put back. -/
theorem perm_cons_erase (h : t.lookup k = some v) :
    t.entries.Perm (⟨k, v⟩ :: (t.erase k).entries) := by
  have hmem : k ∈ t.entries.keys := AList.mem_keys.mp (AList.lookup_isSome.mp (by rw [h]; rfl))
  obtain ⟨w, l₁, l₂, -, hsplit, herase⟩ := List.exists_of_kerase hmem
  have hw : t.lookup k = some w := lookup_eq_some_iff.mpr (by rw [hsplit]; simp)
  obtain rfl := Option.some.inj (h.symm.trans hw)
  change t.entries.Perm (⟨k, v⟩ :: t.entries.kerase k)
  rw [herase, hsplit]
  exact List.perm_middle

theorem erase_of_none (h : t.lookup k = none) : t.erase k = t :=
  AList.ext (List.kerase_of_notMem_keys (AList.lookup_eq_none.mp h))

theorem count_insert (t : Table K V) (k : K) (v : V) (p : K → V → Bool) :
    count (t.insert k v) p = count (t.erase k) p + if p k v then 1 else 0 := by
  rw [count, AList.entries_insert, List.countP_cons]
  rfl

theorem count_erase_add (h : t.lookup k = some v)
    (p : K → V → Bool) : count (t.erase k) p + (if p k v then 1 else 0) = t.count p := by
  rw [count, count, (perm_cons_erase h).countP_eq, List.countP_cons]

theorem count_insert_of_none (h : t.lookup k = none) (w : V)
    (p : K → V → Bool) :
    count (t.insert k w) p = t.count p + if p k w then 1 else 0 := by
  rw [count_insert, erase_of_none h]

theorem gather_insert {A : Type*} (t : Table K V) (k : K) (v : V) (f : V → List A) :
    gather (t.insert k v) f = gather (t.erase k) f + (f v : Multiset A) := by
  rw [gather, AList.entries_insert, List.flatMap_cons, ← Multiset.coe_add, Multiset.add_comm]
  rfl

theorem gather_erase_add {A : Type*} (h : t.lookup k = some v)
    (f : V → List A) : gather (t.erase k) f + (f v : Multiset A) = t.gather f := by
  have hperm := (perm_cons_erase h).flatMap_right fun e => f e.2
  rw [gather, gather, Multiset.coe_eq_coe.mpr hperm, List.flatMap_cons, ← Multiset.coe_add,
    Multiset.add_comm]

theorem size_insert (t : Table K V) (k : K) (v : V) :
    size (t.insert k v) = size (t.erase k) + 1 := by
  rw [size_eq_count, count_insert, ← size_eq_count]
  rfl

theorem size_erase_add (h : t.lookup k = some v) :
    size (t.erase k) + 1 = t.size := by
  rw [size_eq_count, size_eq_count, ← count_erase_add h]
  rfl

theorem size_erase_le (t : Table K V) (k : K) : size (t.erase k) ≤ t.size := by
  rw [← length_keys, ← length_keys, AList.keys_erase]
  exact List.length_erase_le

theorem size_insert_le (t : Table K V) (k : K) (v : V) : size (t.insert k v) ≤ t.size + 1 := by
  rw [size_insert]
  exact Nat.add_le_add_right (size_erase_le t k) 1

/-- Erasing takes one key away. -/
theorem keys_erase_add (h : t.lookup k = some v) :
    ((t.erase k).keys : Multiset K) + {k} = (t.keys : Multiset K) := by
  have hperm := (perm_cons_erase h).map Sigma.fst
  rw [Multiset.add_comm, Multiset.singleton_add, Multiset.cons_coe]
  exact Multiset.coe_eq_coe.mpr hperm.symm

theorem keys_insert_of_none (h : t.lookup k = none) (v : V) :
    (t.insert k v).keys = k :: t.keys := by
  rw [AList.keys_insert, List.erase_of_not_mem]
  exact fun hmem => AList.lookup_eq_none.mp h (AList.mem_keys.mpr hmem)

end Table

end Akroasis
