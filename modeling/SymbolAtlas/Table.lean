/-!
# Tables

A table maps texts to values and lists its keys in the order in which they first came in.  Writing
under a key that is there already changes its value and leaves its place alone.
-/

namespace SymbolAtlas

structure Table (α : Type) where
  entries : List (String × α)
  deriving Inhabited, DecidableEq

namespace Table

variable {α : Type}

def empty : Table α :=
  ⟨[]⟩

def find? (key : String) : List (String × α) → Option α
  | [] => none
  | (k, v) :: rest => if k = key then some v else find? key rest

def put (key : String) (value : α) : List (String × α) → List (String × α)
  | [] => [(key, value)]
  | (k, v) :: rest => if k = key then (k, value) :: rest else (k, v) :: put key value rest

def without (key : String) : List (String × α) → List (String × α)
  | [] => []
  | (k, v) :: rest => if k = key then without key rest else (k, v) :: without key rest

def get? (t : Table α) (key : String) : Option α :=
  find? key t.entries

def contains (t : Table α) (key : String) : Bool :=
  (t.get? key).isSome

def insert (t : Table α) (key : String) (value : α) : Table α :=
  ⟨put key value t.entries⟩

/-- Writes only under a key that is not there yet. -/
def insertNew (t : Table α) (key : String) (value : α) : Table α :=
  if t.contains key then t else t.insert key value

def keys (t : Table α) : List String :=
  t.entries.map Prod.fst

def values (t : Table α) : List α :=
  t.entries.map Prod.snd

def size (t : Table α) : Nat :=
  t.entries.length

/-- The list under a key, empty if there is none. -/
def listAt {β : Type} (t : Table (List β)) (key : String) : List β :=
  (t.get? key).getD []

def append {β : Type} (t : Table (List β)) (key : String) (item : β) : Table (List β) :=
  t.insert key (t.listAt key ++ [item])

/-- The keys whose values satisfy a condition, in order. -/
def keysWhere (t : Table α) (p : α → Bool) : List String :=
  (t.entries.filter fun (_, v) => p v).map Prod.fst

theorem length_without_le (key : String) (entries : List (String × α)) :
    (without key entries).length ≤ entries.length := by
  induction entries with
  | nil => simp [without]
  | cons entry rest ih =>
      obtain ⟨k, v⟩ := entry
      by_cases hk : k = key
      · simpa [without, hk] using Nat.le_succ_of_le ih
      · simpa [without, hk] using ih

/-- Leaving out a key that is there leaves fewer entries. -/
theorem length_without_lt {key : String} {value : α} {entries : List (String × α)}
    (h : find? key entries = some value) : (without key entries).length < entries.length := by
  induction entries with
  | nil => simp [find?] at h
  | cons entry rest ih =>
      obtain ⟨k, v⟩ := entry
      by_cases hk : k = key
      · simpa [without, hk] using Nat.lt_succ_of_le (length_without_le key rest)
      · simpa [without, hk] using ih (by simpa [find?, hk] using h)

@[simp] theorem get?_empty (key : String) : (empty : Table α).get? key = none :=
  rfl

theorem find?_put (key other : String) (value : α) (entries : List (String × α)) :
    find? other (put key value entries) =
      if key = other then some value else find? other entries := by
  induction entries with
  | nil => simp [put, find?]
  | cons entry rest ih =>
      obtain ⟨k, v⟩ := entry
      by_cases hk : k = key
      · subst hk
        by_cases ho : k = other <;> simp [put, find?, ho]
      · by_cases ho : k = other
        · subst ho
          simp [put, find?, hk, Ne.symm hk]
        · simp [put, find?, hk, ho, ih]

/-- Writing changes the value under its own key and no other. -/
theorem get?_insert (t : Table α) (key other : String) (value : α) :
    (t.insert key value).get? other = if key = other then some value else t.get? other :=
  find?_put key other value t.entries

end Table
end SymbolAtlas
