import Clipper.Core
import Mathlib.Order.Lattice

/-! `TypeMap<V>` from `crates/net_decode/src/listener.rs`, behind `TimingInfo::other_times`.
Its `BTreeMap<TypeId, V>` is its entries in key order, carried as a field. -/
namespace Clipper.NetDecode

/-- A `BTreeMap<K, V>`: its entries, keys strictly increasing. -/
structure BTreeMap (κ V : Type) [LinearOrder κ] where
  entries : List (κ × V)
  ascending : entries.Pairwise (fun a b => a.1 < b.1)

namespace BTreeMap
variable {κ V : Type} [LinearOrder κ]

/-- The value an entries list holds under `k`. -/
def lookup (k : κ) : List (κ × V) → Option V
  | [] => none
  | (k', v) :: es => if k = k' then some v else lookup k es

/-- The search-and-insert of `BTreeMap::insert` on the entries: a new key goes before the
first greater one; an existing key keeps its place and gets the new value. -/
def insertEntry (k : κ) (v : V) : List (κ × V) → List (κ × V)
  | [] => [(k, v)]
  | (k', v') :: es =>
    if k < k' then (k, v) :: (k', v') :: es
    else if k = k' then (k', v) :: es
    else (k', v') :: insertEntry k v es

private theorem key_mem_insertEntry {k : κ} {v : V} {es : List (κ × V)} :
    ∀ a ∈ insertEntry k v es, a.1 = k ∨ a ∈ es := by
  induction es with
  | nil => simp [insertEntry]
  | cons e es ih =>
    intro a ha
    unfold insertEntry at ha
    split_ifs at ha with h₁ h₂
    · rcases List.mem_cons.mp ha with rfl | ha
      exacts [.inl rfl, .inr ha]
    · rcases List.mem_cons.mp ha with rfl | ha
      exacts [.inl h₂.symm, .inr (List.mem_cons_of_mem e ha)]
    · rcases List.mem_cons.mp ha with rfl | ha
      exacts [.inr (List.mem_cons_self e es), (ih a ha).imp_right (List.mem_cons_of_mem e)]

private theorem insertEntry_ascending {k : κ} {v : V} {es : List (κ × V)}
    (h : es.Pairwise (fun a b => a.1 < b.1)) :
    (insertEntry k v es).Pairwise (fun a b => a.1 < b.1) := by
  induction es with
  | nil => simp [insertEntry]
  | cons e es ih =>
    obtain ⟨hhd, htl⟩ := List.pairwise_cons.mp h
    unfold insertEntry
    split_ifs with h₁ h₂
    · refine List.Pairwise.cons ?_ h
      simp only [List.mem_cons, forall_eq_or_imp]
      exact ⟨h₁, fun a ha => lt_trans h₁ (hhd a ha)⟩
    · exact List.Pairwise.cons hhd htl
    · refine List.Pairwise.cons (fun a ha => ?_) (ih htl)
      rcases key_mem_insertEntry a ha with hk | ha
      · rw [hk]
        exact lt_of_le_of_ne (not_lt.mp h₁) (Ne.symm h₂)
      · exact hhd a ha

/-- Filing `v` under `k` replaces what `k` held and nothing else. -/
theorem lookup_insertEntry (k k' : κ) (v : V) (es : List (κ × V)) :
    lookup k' (insertEntry k v es) = if k' = k then some v else lookup k' es := by
  induction es with
  | nil => simp [insertEntry, lookup]
  | cons e es ih =>
    obtain ⟨k₀, v₀⟩ := e
    unfold insertEntry
    split_ifs with h₁ h₂ <;> by_cases hk : k' = k <;> simp_all [lookup]

private theorem lookup_of_lt_keys {k : κ} {es : List (κ × V)} (h : ∀ a ∈ es, k < a.1) :
    lookup k es = none := by
  induction es with
  | nil => rfl
  | cons e es ih =>
    simp only [List.mem_cons, forall_eq_or_imp] at h
    simp [lookup, ne_of_lt h.1, ih h.2]

/-- `BTreeMap::new()`. -/
def empty : BTreeMap κ V := ⟨[], .nil⟩

/-- `BTreeMap::get`. -/
def get (m : BTreeMap κ V) (k : κ) : Option V := lookup k m.entries

/-- `BTreeMap::insert`: the value `k` held before, and the map with `v` filed under `k`. -/
def insert (m : BTreeMap κ V) (k : κ) (v : V) : Option V × BTreeMap κ V :=
  (m.get k, ⟨insertEntry k v m.entries, insertEntry_ascending m.ascending⟩)

@[simp] theorem get_empty (k : κ) : (empty : BTreeMap κ V).get k = none := rfl

@[simp] theorem insert_fst (m : BTreeMap κ V) (k : κ) (v : V) : (m.insert k v).1 = m.get k := rfl

/-- The entries model refines the finite map: `insert` is a pointwise update of `get`. -/
theorem get_insert_eq_update (m : BTreeMap κ V) (k : κ) (v : V) :
    (m.insert k v).2.get = Function.update m.get k (some v) := by
  funext k'
  rw [Function.update_apply]
  exact lookup_insertEntry k k' v m.entries

private theorem entries_eq_of_lookup {es es' : List (κ × V)}
    (h : es.Pairwise (fun a b => a.1 < b.1)) (h' : es'.Pairwise (fun a b => a.1 < b.1))
    (hl : ∀ k, lookup k es = lookup k es') : es = es' := by
  induction es generalizing es' with
  | nil =>
    cases es' with
    | nil => rfl
    | cons e es' => simpa [lookup] using hl e.1
  | cons e es ih =>
    cases es' with
    | nil => simpa [lookup] using hl e.1
    | cons e' es' =>
      obtain ⟨k, v⟩ := e
      obtain ⟨k', v'⟩ := e'
      obtain ⟨hhd, htl⟩ := List.pairwise_cons.mp h
      obtain ⟨hhd', htl'⟩ := List.pairwise_cons.mp h'
      have hk : k = k' := by
        by_contra hne
        rcases lt_or_gt_of_ne hne with hlt | hlt
        · have := hl k
          simp [lookup, hne, lookup_of_lt_keys fun a ha => lt_trans hlt (hhd' a ha)] at this
        · have := hl k'
          simp [lookup, Ne.symm hne, lookup_of_lt_keys fun a ha => lt_trans hlt (hhd a ha)] at this
      subst hk
      have hv : v = v' := by simpa [lookup] using hl k
      subst hv
      refine congrArg _ (ih htl htl' fun j => ?_)
      by_cases hj : j = k
      · subst hj
        rw [lookup_of_lt_keys hhd, lookup_of_lt_keys hhd']
      · simpa [lookup, hj] using hl j

/-- The key-ordered entries are determined by what `get` reads: two maps that agree on every
key are the same map, entries and iteration order included. -/
theorem ext_get {m m' : BTreeMap κ V} (h : m.get = m'.get) : m = m' := by
  obtain ⟨es, hs⟩ := m
  obtain ⟨es', hs'⟩ := m'
  have : es = es' := entries_eq_of_lookup hs hs' fun k => congrFun h k
  subst this
  rfl

end BTreeMap

/-- Rust's `TypeId`: an opaque identifier, one per type, totally ordered. A type parameter
`T` of `TypeMap::get::<T>` is passed here as `TypeId::of::<T>()`. -/
structure TypeId where
  t : Nat
  deriving Repr

instance : LinearOrder TypeId :=
  LinearOrder.lift' TypeId.t fun a b h => by cases a; cases b; cases h; rfl

/-- `TypeMap<V>(BTreeMap<TypeId, V>)`. -/
structure TypeMap (V : Type) where
  map : BTreeMap TypeId V

namespace TypeMap
variable {V : Type}

/-- `#[derive(Default)]`: the empty map. -/
instance : Inhabited (TypeMap V) := ⟨⟨.empty⟩⟩

/-- `TypeMap::get::<T>`. -/
def get (self : TypeMap V) (t : TypeId) : Option V := self.map.get t

/-- `TypeMap::insert::<T>`: the value the type held before is dropped. -/
def insert (self : TypeMap V) (t : TypeId) (val : V) : TypeMap V := ⟨(self.map.insert t val).2⟩

@[simp] theorem get_default (t : TypeId) : (default : TypeMap V).get t = none := rfl

/-- Filing `val` under one type changes what `get` reads for that type only. -/
theorem get_insert (self : TypeMap V) (t t' : TypeId) (val : V) :
    (self.insert t val).get t' = if t' = t then some val else self.get t' :=
  BTreeMap.lookup_insertEntry t t' val self.map.entries

/-- Filing under distinct types commutes: the map, iteration order included, does not
depend on the order in which different types were filed. -/
theorem insert_distinct_types_comm (self : TypeMap V) {t t' : TypeId} (h : t ≠ t')
    (val val' : V) :
    (self.insert t val).insert t' val' = (self.insert t' val').insert t val := by
  refine congrArg mk (BTreeMap.ext_get (funext fun j => ?_))
  show get ((self.insert t val).insert t' val') j = get ((self.insert t' val').insert t val) j
  simp only [get_insert]
  by_cases hj : j = t
  · subst hj
    simp [h]
  · simp [hj]

theorem insert_distinct_types_comm_filed : (⟨1⟩ : TypeId) ≠ ⟨2⟩ ∧
    ((default : TypeMap Nat).insert ⟨1⟩ 10).insert ⟨2⟩ 20 =
      ((default : TypeMap Nat).insert ⟨2⟩ 20).insert ⟨1⟩ 10 :=
  ⟨by decide, insert_distinct_types_comm default (by decide) 10 20⟩

/-- Filing the values `ops` lists, in order. -/
def insertAll (self : TypeMap V) (ops : List (TypeId × V)) : TypeMap V :=
  ops.foldl (fun m o => m.insert o.1 o.2) self

/-- After any sequence of inserts, a type reads the value it was filed with last, and
what it held before if it was never filed. -/
theorem get_insertAll (self : TypeMap V) (ops : List (TypeId × V)) (t : TypeId) :
    (self.insertAll ops).get t =
      ((ops.reverse.find? (·.1 = t)).map Prod.snd).or (self.get t) := by
  induction ops generalizing self with
  | nil => rfl
  | cons o ops ih =>
    obtain ⟨t', val⟩ := o
    rw [insertAll, List.foldl_cons, ← insertAll, ih, get_insert]
    by_cases ht : t' = t
    · subst ht
      simp only [List.reverse_cons, List.find?_append]
      cases ops.reverse.find? (·.1 = t') <;> simp
    · simp [ht, Ne.symm ht]

/-- Values once filed are never removed: a type that reads a value reads one after any
further inserts. -/
theorem get_insertAll_isSome (self : TypeMap V) (ops : List (TypeId × V)) {t : TypeId}
    (h : (self.get t).isSome) : ((self.insertAll ops).get t).isSome := by
  rw [get_insertAll]
  cases (ops.reverse.find? (·.1 = t)).map Prod.snd <;> simp [h]

end TypeMap
end Clipper.NetDecode
