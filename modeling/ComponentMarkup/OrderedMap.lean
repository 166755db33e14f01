/-
  Maps that remember the order in which their keys came.

  * `OrderedMap`: entries in order of first insertion, each key once.
  * `insert`: a new key goes to the end, a known key keeps its place and takes the new value
    (`keys_insert_of_mem`, `keys_insert_of_not_mem`, `get?_insert`).
  * `erase`: removes a key, the others keep their order (`keys_erase`, `get?_erase`).
  * `get?_eq_some_iff`: looking up and listing the entries agree.
  * `get?_foldl_insert_of_mem`: what is found after entries were inserted one after another.
-/

namespace ComponentMarkup

universe u v

/-- A map with unique keys in insertion order. -/
structure OrderedMap (α : Type u) (β : Type v) where
  entries : List (α × β)
  nodup : (entries.map Prod.fst).Nodup
deriving DecidableEq, Repr

namespace OrderedMap

variable {α : Type u} {β : Type v} {k k' : α} {b : β} {m : OrderedMap α β}

theorem eq_of_entries_eq {m n : OrderedMap α β} (h : m.entries = n.entries) : m = n := by
  cases m; cases n; cases h; rfl

/-- The map without entries. -/
def empty : OrderedMap α β := ⟨[], by simp⟩

instance : EmptyCollection (OrderedMap α β) := ⟨empty⟩
instance : Inhabited (OrderedMap α β) := ⟨empty⟩

/-- The keys, in order. -/
def keys (m : OrderedMap α β) : List α := m.entries.map Prod.fst

/-- The values, in the order of their keys. -/
def values (m : OrderedMap α β) : List β := m.entries.map Prod.snd

/-- The number of entries. -/
def size (m : OrderedMap α β) : Nat := m.entries.length

theorem nodup_keys (m : OrderedMap α β) : m.keys.Nodup := m.nodup

@[simp] theorem keys_empty : (∅ : OrderedMap α β).keys = [] := rfl

@[simp] theorem entries_empty : (∅ : OrderedMap α β).entries = [] := rfl

section
variable [DecidableEq α]

/-- The value of the first entry with the key. -/
def find (k : α) : List (α × β) → Option β
  | [] => none
  | (k', b) :: es => if k' = k then some b else find k es

/-- The entries with `k` set to `b`, in place if the key is there and at the end if not. -/
def put (k : α) (b : β) : List (α × β) → List (α × β)
  | [] => [(k, b)]
  | (k', b') :: es => if k' = k then (k', b) :: es else (k', b') :: put k b es

theorem map_fst_put (es : List (α × β)) :
    (put k b es).map Prod.fst =
      if k ∈ es.map Prod.fst then es.map Prod.fst else es.map Prod.fst ++ [k] := by
  induction es with
  | nil => simp [put]
  | cons e es ih =>
    by_cases h : e.1 = k
    · simp [put, h]
    · have : ¬ k = e.1 := fun he => h he.symm
      simp only [put, h, if_false, List.map_cons, ih, List.mem_cons, this, false_or]
      split <;> simp

theorem find_put (es : List (α × β)) :
    find k' (put k b es) = if k = k' then some b else find k' es := by
  induction es with
  | nil => simp [put, find]
  | cons e es ih =>
    by_cases h : e.1 = k
    · subst h
      by_cases hk : e.1 = k' <;> simp [put, find, hk]
    · by_cases hk : e.1 = k'
      · have : ¬ k = k' := fun he => h (hk.trans he.symm)
        subst hk
        simp [put, find, h, Ne.symm h]
      · simp [put, find, h, hk, ih]

theorem find_isSome (es : List (α × β)) : (find k es).isSome = true ↔ k ∈ es.map Prod.fst := by
  induction es with
  | nil => simp [find]
  | cons e es ih =>
    by_cases h : e.1 = k
    · simp [find, h]
    · have : ¬ k = e.1 := fun he => h he.symm
      simp [find, h, this, ih]

/-- The value of a key. -/
def get? (m : OrderedMap α β) (k : α) : Option β := find k m.entries

/-- Whether the map has the key. -/
def contains (m : OrderedMap α β) (k : α) : Bool := (m.get? k).isSome

/-- Sets the value of a key. -/
def insert (m : OrderedMap α β) (k : α) (b : β) : OrderedMap α β where
  entries := put k b m.entries
  nodup := by
    rw [map_fst_put]
    split
    · exact m.nodup
    next h => exact List.nodup_append.2 ⟨m.nodup, by simp, fun a ha c hc => by
        rw [List.mem_singleton] at hc
        subst hc
        exact fun he => h (he ▸ ha)⟩

/-- Removes a key and keeps the order of the others. -/
def erase (m : OrderedMap α β) (k : α) : OrderedMap α β where
  entries := m.entries.filter fun e => e.1 ≠ k
  nodup := m.nodup.sublist ((List.filter_sublist).map Prod.fst)

/-- The entries inserted one after another. -/
def ofList (es : List (α × β)) : OrderedMap α β :=
  es.foldl (fun m e => m.insert e.1 e.2) ∅

theorem contains_iff : m.contains k = true ↔ k ∈ m.keys :=
  find_isSome m.entries

theorem get?_eq_some_iff : m.get? k = some b ↔ (k, b) ∈ m.entries := by
  have h := m.nodup
  unfold get?
  generalize m.entries = es at h
  induction es with
  | nil => simp [find]
  | cons e es ih =>
    obtain ⟨k', b'⟩ := e
    rw [List.map_cons, List.nodup_cons] at h
    by_cases hk : k' = k
    · subst hk
      have : (k', b) ∉ es := fun hm => h.1 (List.mem_map.2 ⟨_, hm, rfl⟩)
      simp [find, this, eq_comm]
    · simp [find, hk, Ne.symm hk, ih h.2]

theorem keys_insert : (m.insert k b).keys = if k ∈ m.keys then m.keys else m.keys ++ [k] :=
  map_fst_put m.entries

theorem keys_insert_of_mem (h : k ∈ m.keys) : (m.insert k b).keys = m.keys := by
  rw [keys_insert, if_pos h]

theorem keys_insert_of_not_mem (h : k ∉ m.keys) : (m.insert k b).keys = m.keys ++ [k] := by
  rw [keys_insert, if_neg h]

theorem put_of_not_mem {es : List (α × β)} (h : k ∉ es.map Prod.fst) :
    put k b es = es ++ [(k, b)] := by
  induction es with
  | nil => rfl
  | cons e es ih =>
    rw [List.map_cons, List.mem_cons, not_or] at h
    rw [put, if_neg (Ne.symm h.1), ih h.2, List.cons_append]

theorem entries_insert_of_not_mem (h : k ∉ m.keys) : (m.insert k b).entries = m.entries ++ [(k, b)] :=
  put_of_not_mem h

theorem get?_insert : (m.insert k b).get? k' = if k = k' then some b else m.get? k' :=
  find_put m.entries

@[simp] theorem get?_empty : (∅ : OrderedMap α β).get? k = none := rfl

theorem get?_foldl_insert {es : List (α × β)} (h : k ∉ es.map Prod.fst) (m : OrderedMap α β) :
    (es.foldl (fun m e => m.insert e.1 e.2) m).get? k = m.get? k := by
  induction es generalizing m with
  | nil => rfl
  | cons e es ih =>
    rw [List.map_cons, List.mem_cons, not_or] at h
    rw [List.foldl_cons, ih h.2, get?_insert, if_neg (Ne.symm h.1)]

/-- Of entries that are inserted one after another, one is found if no other one with its key has
another value. -/
theorem get?_foldl_insert_of_mem {es : List (α × β)} (h : (k, b) ∈ es)
    (hsame : ∀ c, (k, c) ∈ es → c = b) (m : OrderedMap α β) :
    (es.foldl (fun m e => m.insert e.1 e.2) m).get? k = some b := by
  induction es generalizing m with
  | nil => cases h
  | cons e es ih =>
    rw [List.foldl_cons]
    by_cases hk : k ∈ es.map Prod.fst
    · obtain ⟨⟨k', c⟩, hm, rfl⟩ := List.mem_map.1 hk
      rw [hsame c (List.mem_cons_of_mem _ hm)] at hm
      exact ih hm (fun c hc => hsame c (List.mem_cons_of_mem _ hc)) _
    · have hhead : (k, b) = e := (List.mem_cons.1 h).resolve_right fun hm =>
        hk (List.mem_map.2 ⟨_, hm, rfl⟩)
      rw [get?_foldl_insert hk, get?_insert, ← hhead, if_pos rfl]

theorem keys_erase : (m.erase k).keys = m.keys.filter (· ≠ k) := by
  simp only [keys, erase, List.filter_map]
  rfl

theorem get?_erase : (m.erase k).get? k' = if k = k' then none else m.get? k' := by
  simp only [get?, erase]
  induction m.entries with
  | nil => simp [find]
  | cons e es ih =>
    by_cases h : e.1 = k
    · subst h
      by_cases hk : e.1 = k' <;> simp_all [find]
    · by_cases hk : e.1 = k'
      · have : ¬ k = k' := fun he => h (hk.trans he.symm)
        subst hk
        simp [find, h, Ne.symm h]
      · simp_all [find]

end

/-- The entries in the order `le` of their keys. -/
def sortKeys (m : OrderedMap α β) (le : α → α → Bool) : OrderedMap α β where
  entries := m.entries.mergeSort fun a b => le a.1 b.1
  nodup := ((List.mergeSort_perm _ _).map Prod.fst).nodup_iff.2 m.nodup

theorem keys_sortKeys_perm (le : α → α → Bool) : (m.sortKeys le).keys.Perm m.keys :=
  (List.mergeSort_perm _ _).map Prod.fst

end OrderedMap

end ComponentMarkup
