/-! Dictionaries that keep the order in which their keys came.

A dictionary binds each key once. Writing a key that is bound keeps its place and
replaces the value; writing a new one appends it. `get?` is the view that the rest
of the library reasons through: what it holds after `insert` and `filter` is said
by `get?_insert` and `get?_filter`, and `keys_insert` says what became of the
order. -/
namespace Multiversion

/-- Values by key, in the order the keys came. -/
structure Dictionary (κ α : Type) where
  /-- The bindings, oldest first. -/
  entries : List (κ × α)
  /-- No key is bound twice. -/
  distinct : (entries.map Prod.fst).Nodup

namespace Dictionary
variable {κ α : Type} [DecidableEq κ]

/-- No binding. -/
def empty : Dictionary κ α := ⟨[], by simp⟩

/-- The keys, oldest first. -/
def keys (d : Dictionary κ α) : List κ := d.entries.map Prod.fst

/-- The value of the first binding of a key. -/
def find? (key : κ) : List (κ × α) → Option α
  | [] => none
  | (k, v) :: rest => if k = key then some v else find? key rest

/-- The value a key is bound to. -/
def get? (d : Dictionary κ α) (key : κ) : Option α := find? key d.entries

/-- Whether a key is bound. -/
def contains (d : Dictionary κ α) (key : κ) : Bool := (d.get? key).isSome

/-- The bindings after a key is written. -/
def put (key : κ) (value : α) : List (κ × α) → List (κ × α)
  | [] => [(key, value)]
  | (k, v) :: rest => if k = key then (k, value) :: rest else (k, v) :: put key value rest

theorem map_fst_put (key : κ) (value : α) (entries : List (κ × α)) :
    (put key value entries).map Prod.fst =
      if key ∈ entries.map Prod.fst then entries.map Prod.fst
      else entries.map Prod.fst ++ [key] := by
  induction entries with
  | nil => simp [put]
  | cons e rest ih =>
    obtain ⟨k, v⟩ := e
    by_cases h : k = key
    · simp [put, h]
    · have h' : key ≠ k := fun e => h e.symm
      simp only [put, h, if_false, List.map_cons, ih, List.mem_cons, h', false_or]
      split <;> simp

theorem nodup_put (key : κ) (value : α) {entries : List (κ × α)}
    (h : (entries.map Prod.fst).Nodup) : ((put key value entries).map Prod.fst).Nodup := by
  rw [map_fst_put]
  split
  · exact h
  · next hk =>
    refine List.nodup_append.2 ⟨h, by simp, fun a ha b hb => ?_⟩
    rw [List.mem_singleton.1 hb]
    exact fun e => hk (e ▸ ha)

/-- The dictionary after a key is written. -/
def insert (d : Dictionary κ α) (key : κ) (value : α) : Dictionary κ α :=
  ⟨put key value d.entries, nodup_put key value d.distinct⟩

/-- The dictionary of bindings written one after the other. -/
def ofList (bindings : List (κ × α)) : Dictionary κ α :=
  bindings.foldl (fun d b => d.insert b.1 b.2) empty

/-- The bindings whose key passes a test. -/
def filter (keep : κ → Bool) (d : Dictionary κ α) : Dictionary κ α :=
  ⟨d.entries.filter fun e => keep e.1,
    d.distinct.sublist (List.Sublist.map Prod.fst List.filter_sublist)⟩

/-! ### Lemmas -/

@[simp] theorem get?_empty (key : κ) : (empty : Dictionary κ α).get? key = none := rfl

theorem find?_put (key key' : κ) (value : α) (entries : List (κ × α)) :
    find? key' (put key value entries) =
      if key' = key then some value else find? key' entries := by
  induction entries with
  | nil => simp [put, find?, eq_comm]
  | cons e rest ih => grind [put, find?]

@[simp] theorem get?_insert (d : Dictionary κ α) (key key' : κ) (value : α) :
    (d.insert key value).get? key' = if key' = key then some value else d.get? key' :=
  find?_put key key' value d.entries

theorem mem_of_find? {entries : List (κ × α)} {key : κ} {value : α}
    (h : find? key entries = some value) : (key, value) ∈ entries := by
  induction entries with
  | nil => contradiction
  | cons entry rest ih =>
    obtain ⟨k, v⟩ := entry
    rw [find?] at h
    split at h
    · next hkey =>
      obtain rfl := Option.some.inj h
      rw [hkey]
      exact List.mem_cons_self
    · exact List.mem_cons_of_mem _ (ih h)

theorem find?_of_mem {entries : List (κ × α)} (hd : (entries.map Prod.fst).Nodup) {key : κ}
    {value : α} (h : (key, value) ∈ entries) : find? key entries = some value := by
  induction entries with
  | nil => contradiction
  | cons entry rest ih =>
    obtain ⟨k, v⟩ := entry
    obtain ⟨hk, hrest⟩ := List.nodup_cons.1 hd
    rcases List.mem_cons.1 h with heq | hmem
    · cases heq
      rw [find?, if_pos rfl]
    · have hne : k ≠ key := by
        rintro rfl
        exact hk (List.mem_map.2 ⟨_, hmem, rfl⟩)
      rw [find?, if_neg hne, ih hrest hmem]

/-- The bindings are the keys with what they are bound to. -/
theorem mem_entries_iff {d : Dictionary κ α} {key : κ} {value : α} :
    (key, value) ∈ d.entries ↔ d.get? key = some value :=
  ⟨find?_of_mem d.distinct, mem_of_find?⟩

theorem mem_keys_of_get? {d : Dictionary κ α} {key : κ} {value : α}
    (h : d.get? key = some value) : key ∈ d.keys :=
  List.mem_map_of_mem (mem_of_find? h)

/-- A key that was bound keeps its place, and a new one comes last. -/
theorem keys_insert (d : Dictionary κ α) (key : κ) (value : α) :
    (d.insert key value).keys = if key ∈ d.keys then d.keys else d.keys ++ [key] :=
  map_fst_put key value d.entries

theorem mem_keys_insert {d : Dictionary κ α} {key key' : κ} {value : α} :
    key' ∈ (d.insert key value).keys ↔ key' = key ∨ key' ∈ d.keys := by
  rw [keys_insert]
  split
  · next hmem => exact ⟨.inr, fun h => h.elim (fun e => e ▸ hmem) id⟩
  · rw [List.mem_append, List.mem_singleton, or_comm]

theorem find?_filter (keep : κ → Bool) (key : κ) (entries : List (κ × α)) :
    find? key (entries.filter fun e => keep e.1) =
      if keep key then find? key entries else none := by
  induction entries with
  | nil => simp [find?]
  | cons e rest ih => grind [find?]

@[simp] theorem get?_filter (keep : κ → Bool) (d : Dictionary κ α) (key : κ) :
    (d.filter keep).get? key = if keep key then d.get? key else none :=
  find?_filter keep key d.entries

end Dictionary

end Multiversion
