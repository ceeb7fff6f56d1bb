/-!
# Tables in the order of their names

A finite map from names to values, kept as a list in strictly ascending order of the names.  The
order is part of the type, so two tables that answer every look-up alike are equal, and reading a
table off from front to back lists its names in order.
-/

namespace Rehearsal

/-- Strictly ascending names. -/
def Ascending {α : Type} (entries : List (String × α)) : Prop :=
  entries.Pairwise fun a b => a.1 < b.1

/-- A finite map from names to values. -/
structure Table (α : Type) where
  entries : List (String × α)
  ascending : Ascending entries

namespace Table

variable {α : Type}

/-! ## Entries in order -/

/-- The value of a name in a list of entries. -/
def lookup (name : String) : List (String × α) → Option α
  | [] => none
  | (key, value) :: rest => if key = name then some value else lookup name rest

/-- Puts an entry in its place, over the entry of that name if there is one. -/
def put (name : String) (value : α) : List (String × α) → List (String × α)
  | [] => [(name, value)]
  | (key, old) :: rest =>
      if name < key then (name, value) :: (key, old) :: rest
      else if key = name then (name, value) :: rest
      else (key, old) :: put name value rest

/-- Leaves out the entry of a name. -/
def without (name : String) (entries : List (String × α)) : List (String × α) :=
  entries.filter fun entry => entry.1 ≠ name

theorem mem_put {name : String} {value : α} {entries : List (String × α)} {entry : String × α}
    (h : entry ∈ put name value entries) : entry = (name, value) ∨ entry ∈ entries := by
  induction entries with
  | nil => simpa [put] using h
  | cons head rest ih =>
      obtain ⟨key, old⟩ := head
      unfold put at h
      split at h
      · simpa using h
      · split at h
        · rcases List.mem_cons.1 h with h | h <;> simp [h]
        · rcases List.mem_cons.1 h with h | h
          · simp [h]
          · rcases ih h with h | h <;> simp [h]

theorem ascending_put (name : String) (value : α) {entries : List (String × α)}
    (h : Ascending entries) : Ascending (put name value entries) := by
  induction entries with
  | nil => simp [put, Ascending]
  | cons head rest ih =>
      obtain ⟨key, old⟩ := head
      have hrest := List.pairwise_cons.1 h
      unfold put
      split
      · rename_i hlt
        refine List.pairwise_cons.2 ⟨fun entry hentry => ?_, h⟩
        rcases List.mem_cons.1 hentry with rfl | hmem
        · exact hlt
        · exact String.lt_trans hlt (hrest.1 entry hmem)
      · split
        · rename_i heq
          subst heq
          exact List.pairwise_cons.2 hrest
        · rename_i hnlt hne
          refine List.pairwise_cons.2 ⟨fun entry hentry => ?_, ih hrest.2⟩
          rcases mem_put hentry with rfl | hmem
          · have hle : key ≤ name := String.not_lt.1 hnlt
            exact Decidable.byContradiction fun hn =>
              hne (String.le_antisymm hle (String.not_lt.1 hn))
          · exact hrest.1 entry hmem

theorem ascending_without (name : String) {entries : List (String × α)} (h : Ascending entries) :
    Ascending (without name entries) := h.filter _

/-! ## Operations -/

/-- The table without entries. -/
def empty : Table α := ⟨[], List.Pairwise.nil⟩

instance : EmptyCollection (Table α) := ⟨empty⟩

instance : Inhabited (Table α) := ⟨empty⟩

/-- The value of a name. -/
def get? (table : Table α) (name : String) : Option α := lookup name table.entries

/-- Whether a name has a value. -/
def contains (table : Table α) (name : String) : Bool := (table.get? name).isSome

/-- Gives a name a value, in place of the one it has. -/
def insert (table : Table α) (name : String) (value : α) : Table α :=
  ⟨put name value table.entries, ascending_put name value table.ascending⟩

/-- Takes the value of a name away. -/
def erase (table : Table α) (name : String) : Table α :=
  ⟨without name table.entries, ascending_without name table.ascending⟩

/-- All names, in strictly ascending order. -/
def names (table : Table α) : List String := table.entries.map Prod.fst

/-- How many names have a value. -/
def size (table : Table α) : Nat := table.entries.length

def isEmpty (table : Table α) : Bool := table.entries.isEmpty

/-! ## Looking names up -/

theorem lookup_put (name other : String) (value : α) (entries : List (String × α)) :
    lookup other (put name value entries) =
      if other = name then some value else lookup other entries := by
  induction entries with
  | nil => simp [put, lookup, eq_comm]
  | cons head rest ih =>
      obtain ⟨key, old⟩ := head
      unfold put
      split
      · simp [lookup, eq_comm]
      · split
        · rename_i heq
          subst heq
          by_cases h : key = other
          · simp [lookup, h]
          · simp [lookup, h, Ne.symm h]
        · rename_i hne
          by_cases h : key = other
          · subst h
            simp [lookup, hne]
          · simp only [lookup, if_neg h, ih]

theorem lookup_without (name other : String) (entries : List (String × α)) :
    lookup other (without name entries) = if other = name then none else lookup other entries := by
  induction entries with
  | nil => simp [without, lookup]
  | cons head rest ih =>
      obtain ⟨key, old⟩ := head
      unfold without at ih ⊢
      by_cases hkey : key = name
      · subst hkey
        rw [List.filter_cons_of_neg (by simp), ih]
        by_cases h : other = key
        · simp [h]
        · simp [lookup, h, Ne.symm h]
      · rw [List.filter_cons_of_pos (by simpa using hkey)]
        by_cases h : key = other
        · subst h
          simp [lookup, hkey]
        · simp only [lookup, if_neg h, ih]

theorem mem_map_fst_iff {name : String} {entries : List (String × α)} :
    name ∈ entries.map Prod.fst ↔ (lookup name entries).isSome := by
  induction entries with
  | nil => simp [lookup]
  | cons head rest ih =>
      obtain ⟨key, old⟩ := head
      by_cases h : key = name
      · simp [lookup, h]
      · simp [lookup, h, Ne.symm h, ← ih]

@[simp] theorem get?_empty (name : String) : (empty : Table α).get? name = none := rfl

theorem get?_insert (table : Table α) (name other : String) (value : α) :
    (table.insert name value).get? other = if other = name then some value else table.get? other :=
  lookup_put name other value table.entries

@[simp] theorem get?_insert_self (table : Table α) (name : String) (value : α) :
    (table.insert name value).get? name = some value := by
  rw [get?_insert, if_pos rfl]

theorem get?_insert_of_ne (table : Table α) {name other : String} (value : α) (h : other ≠ name) :
    (table.insert name value).get? other = table.get? other := by
  rw [get?_insert, if_neg h]

theorem get?_erase (table : Table α) (name other : String) :
    (table.erase name).get? other = if other = name then none else table.get? other :=
  lookup_without name other table.entries

theorem lt_of_lookup {key name : String} {old value : α} {rest : List (String × α)}
    (h : Ascending ((key, old) :: rest)) (hvalue : lookup name rest = some value) : key < name := by
  have hmem : name ∈ rest.map Prod.fst := by
    rw [mem_map_fst_iff, hvalue]
    rfl
  obtain ⟨entry, hentry, rfl⟩ := List.mem_map.1 hmem
  exact List.rel_of_pairwise_cons h hentry

theorem put_of_lookup {name : String} {value : α} {entries : List (String × α)}
    (h : Ascending entries) (hvalue : lookup name entries = some value) :
    put name value entries = entries := by
  induction entries with
  | nil => cases hvalue
  | cons head rest ih =>
      obtain ⟨key, old⟩ := head
      unfold lookup at hvalue
      unfold put
      by_cases hkey : key = name
      · subst hkey
        rw [if_pos rfl] at hvalue
        cases hvalue
        rw [if_neg (String.lt_irrefl key), if_pos rfl]
      · rw [if_neg hkey] at hvalue
        have hlt := lt_of_lookup h hvalue
        rw [if_neg (String.lt_asymm hlt), if_neg hkey, ih h.tail hvalue]

/-- Giving a name the value that it has changes nothing. -/
theorem insert_of_get? {table : Table α} {name : String} {value : α}
    (h : table.get? name = some value) : table.insert name value = table := by
  obtain ⟨entries, ascending⟩ := table
  have hput := put_of_lookup ascending h
  simp only [insert, hput]

theorem mem_names {table : Table α} {name : String} :
    name ∈ table.names ↔ (table.get? name).isSome := mem_map_fst_iff

theorem names_pairwise (table : Table α) : table.names.Pairwise (· < ·) :=
  List.pairwise_map.2 table.ascending

theorem names_nodup (table : Table α) : table.names.Nodup := by
  refine table.names_pairwise.imp fun {a b} h heq => ?_
  subst heq
  exact String.lt_irrefl a h

/-- The names of a table are determined by which names have a value. -/
theorem names_eq {β : Type} {first : Table α} {second : Table β}
    (h : ∀ name, (first.get? name).isSome = (second.get? name).isSome) :
    first.names = second.names := by
  have hperm : first.names.Perm second.names := by
    rw [List.perm_ext_iff_of_nodup first.names_nodup second.names_nodup]
    intro name
    rw [mem_names, mem_names, h]
  refine hperm.eq_of_pairwise (fun a b _ _ hab hba => ?_) first.names_pairwise
    second.names_pairwise
  exact absurd (String.lt_trans hab hba) (String.lt_irrefl a)

theorem mem_iff_lookup {name : String} {value : α} {entries : List (String × α)}
    (h : Ascending entries) : (name, value) ∈ entries ↔ lookup name entries = some value := by
  induction entries with
  | nil => simp [lookup]
  | cons head rest ih =>
      obtain ⟨key, old⟩ := head
      have hrest := ih h.tail
      by_cases hkey : key = name
      · subst hkey
        have hnone : (key, value) ∉ rest := fun hmem =>
          String.lt_irrefl key (List.rel_of_pairwise_cons h hmem)
        simp [lookup, hnone, eq_comm]
      · simp [lookup, hkey, Ne.symm hkey, hrest]

theorem entries_nodup (table : Table α) : table.entries.Nodup :=
  (List.pairwise_map.1 table.names_nodup).imp fun hne heq => hne (congrArg Prod.fst heq)

/-- Tables that answer every look-up alike are equal. -/
theorem ext_get? {first second : Table α} (h : ∀ name, first.get? name = second.get? name) :
    first = second := by
  have hperm : first.entries.Perm second.entries := by
    rw [List.perm_ext_iff_of_nodup first.entries_nodup second.entries_nodup]
    rintro ⟨name, value⟩
    have hname : lookup name first.entries = lookup name second.entries := h name
    rw [mem_iff_lookup first.ascending, mem_iff_lookup second.ascending, hname]
  have hentries : first.entries = second.entries := by
    refine hperm.eq_of_pairwise (fun a b _ _ hab hba => ?_) first.ascending second.ascending
    exact absurd (String.lt_trans hab hba) (String.lt_irrefl a.1)
  cases first
  cases second
  cases hentries
  rfl

end Table

end Rehearsal
