import HAL9000.CommonLib.Base
import HAL9000.CommonLib.List
import HAL9000.CommonLib.Memory

/-!
# The hash table

Port of `CommonLib/src/hash_table.c`. A table has a number of buckets, each of them the head of a list
of elements. The elements carry their list entry and their key with them: `key` gives the bytes that
are found from the key's address on, `OffsetToKey` bytes from a list entry.

The numbers of a table are `DWORD`s.
-/

namespace HAL9000.HashTable
open Lib LinkMem

/-- The list entries: the heads of the buckets (C `HASH_TABLE_DATA`) and the elements. -/
inductive Slot (E : Type) where
  | bucket (i : Nat)
  | elem (e : E)
deriving DecidableEq

/-- A hash table (C `HASH_TABLE`) and the memory of its buckets and elements. -/
structure Table (E : Type) where
  maxKeys : Nat
  keySize : Nat
  numberOfElements : Nat
  hashFunc : (Nat → UInt8) → Nat → Nat → Nat
  links : Links (Slot E)
  key : Slot E → Nat → UInt8

/-- What a search notes down (C `HASH_ELEM_SEARCH_CTX`). -/
structure SearchCtx (E : Type) where
  placeholderEntry : Slot E
  result : Int

variable {E : Type}

def Table.hIndex (t : Table E) (key : Nat → UInt8) : Nat := t.hashFunc key t.keySize t.maxKeys

/-- Initialize the heads of the first buckets: the loop of `HashTableInit`. -/
def initEntries [DecidableEq E] (links : Links (Slot E)) : Nat → Links (Slot E)
  | 0 => links
  | i + 1 => initializeListHead (initEntries links i) (.bucket i)

/-- Make a table of this many buckets (C `HashTablePreinit` and `HashTableInit`). -/
def hashTableInit [DecidableEq E] (maxKeys keySize : Nat)
    (hashFunc : (Nat → UInt8) → Nat → Nat → Nat) (links : Links (Slot E))
    (key : Slot E → Nat → UInt8) : Exec (Table E) := do
  ensure (0 < maxKeys ∧ maxKeys < maxDword / 16)
  pure
    { maxKeys := maxKeys
      keySize := keySize
      numberOfElements := 0
      hashFunc := hashFunc
      links := initEntries links maxKeys
      key := key }

/-- Compare an element of the table with a key (C `_HashTableSearchElem`). -/
def hashTableSearchElem (t : Table E) (key : Nat → UInt8) (firstElem : Slot E)
    (_ : SearchCtx E) : Int × SearchCtx E :=
  let result := clRmemcmp (t.key firstElem) key t.keySize
  (result, ⟨firstElem, result⟩)

variable [DecidableEq E]

/-- Search a bucket. If the key is there, the place is its entry, and otherwise it is the entry that
    a new one goes behind (C `_HashTableSearchKeyInBucket`). -/
def hashTableSearchKeyInBucket (fuel : Nat) (t : Table E) (bucket : Slot E) (key : Nat → UInt8) :
    Exec (Bool × Slot E) := do
  let (result, ctx) ← listSearchForElement fuel t.links bucket true (hashTableSearchElem t key)
    ⟨bucket, 0⟩
  if result.isSome then
    ensure (result = some ctx.placeholderEntry)
    ensure (ctx.result = 0)
  pure (result.isSome,
    if ctx.result > 0 then blink t.links ctx.placeholderEntry else ctx.placeholderEntry)

/-- Insert an element, and return the one with the same key that it replaces (C `HashTableInsert`). -/
def hashTableInsert (fuel : Nat) (t : Table E) (element : Slot E) : Exec (Table E × Option (Slot E)) := do
  let key := t.key element
  let hIndex := t.hIndex key
  ensure (hIndex < t.maxKeys)
  let (elementAlreadyInHash, place) ← hashTableSearchKeyInBucket fuel t (.bucket hIndex) key
  let links := insertHeadList t.links place element
  if elementAlreadyInHash then
    pure ({ t with links := (removeEntryList links place).1 }, some place)
  else
    pure ({ t with links := links, numberOfElements := wadd 32 t.numberOfElements 1 }, none)

/-- Remove an element (C `HashTableRemoveEntry`). -/
def hashTableRemoveEntry (t : Table E) (element : Slot E) : Table E := { t with
    links := (removeEntryList t.links element).1
    numberOfElements := wsub 32 t.numberOfElements 1 }

/-- The element with a key, if there is one (C `HashTableLookup`). -/
def hashTableLookup (fuel : Nat) (t : Table E) (key : Nat → UInt8) : Exec (Option (Slot E)) := do
  let (elementInHash, result) ← hashTableSearchKeyInBucket fuel t (.bucket (t.hIndex key)) key
  pure (if elementInHash then some result else none)

/-- Remove the element with a key, and return it (C `HashTableRemove`). -/
def hashTableRemove (fuel : Nat) (t : Table E) (key : Nat → UInt8) : Exec (Table E × Option (Slot E)) := do
  match ← hashTableLookup fuel t key with
  | some entry => pure (hashTableRemoveEntry t entry, some entry)
  | none => pure (t, none)

/-- An iterator over a table (C `HASH_ITERATOR`). -/
structure HashIterator (E : Type) where
  keyIndex : Nat
  currentKeyIterator : ListIterator (Slot E)

/-- C `HashTableIteratorInit`. -/
def hashTableIteratorInit (t : Table E) : HashIterator E := ⟨0, listIteratorInit t.links (.bucket 0)⟩

/-- The loop of `HashTableIteratorNext`. It looks at one bucket more in each iteration, so at most
    `MaxKeys` times. The head behind the last bucket is read, too, but not used. -/
def hashTableIteratorFrom (t : Table E) : Nat → HashIterator E → Option (Slot E) × HashIterator E
  | 0, it => (none, it)
  | fuel + 1, it =>
    if it.keyIndex < t.maxKeys then
      match listIteratorNext t.links it.currentKeyIterator with
      | (some entry, lit) => (some entry, { it with currentKeyIterator := lit })
      | (none, _) => hashTableIteratorFrom t fuel
          ⟨it.keyIndex + 1, listIteratorInit t.links (.bucket (it.keyIndex + 1))⟩
    else (none, it)

/-- The next element, if there is one (C `HashTableIteratorNext`). -/
def hashTableIteratorNext (t : Table E) (it : HashIterator E) : Option (Slot E) × HashIterator E :=
  hashTableIteratorFrom t (t.maxKeys + 1) it

/-- The loop of `HashTableClear`. -/
def hashTableClearFrom (freeFunction : Table E → Slot E → Table E) : Nat → Table E → HashIterator E → Exec (Table E)
  | 0, _, _ => throw .fuel
  | fuel + 1, t, it =>
    match hashTableIteratorNext t it with
    | (none, _) => pure t
    | (some entry, it) =>
      hashTableClearFrom freeFunction fuel (freeFunction (hashTableRemoveEntry t entry) entry) it

/-- Remove all elements, and hand each of them to the free function (C `HashTableClear`). -/
def hashTableClear (fuel : Nat) (t : Table E) (freeFunction : Table E → Slot E → Table E) : Exec (Table E) :=
  hashTableClearFrom freeFunction fuel t (hashTableIteratorInit t)

end HAL9000.HashTable
