-- The index of a zone, from `cache/index.rs`: the entries, the reference
-- counts of their file hashes, the keys of each base key, and the schedule of
-- accesses. `insert_entry` and `remove_entry` keep the counts and the
-- schedule; the size and the variants are kept by their callers.
import Rginx.TreeMaps
import Rginx.CacheState

open tree_maps

namespace rginx.cache

/-! ## The reference counts -/

def increment_hash_ref (counts : Map Nat) (hash : String) : Map Nat :=
  counts.insert hash (counts.getD hash 0 + 1)

def decrement_hash_ref (counts : Map Nat) (hash : String) : Map Nat :=
  match counts[hash]? with
  | none => counts
  | some count =>
    if count - 1 = 0 then counts.erase hash else counts.insert hash (count - 1)

def CacheIndex.hash_is_referenced (index : CacheIndex) (hash : String) : Bool :=
  0 < index.hash_ref_counts.getD hash 0

/-! ## The schedule -/

def CacheIndex.unschedule_entry_access (index : CacheIndex) (key : String) : CacheIndex :=
  { index with
    access_ticket_by_key := index.access_ticket_by_key.erase key
    access_schedule := match index.access_ticket_by_key[key]? with
      | none => index.access_schedule
      | some ticket =>
        index.access_schedule.erase ⟨ticket.last_access_unix_ms, ticket.ticket, key⟩ }

def CacheIndex.schedule_entry_access (index : CacheIndex) (key : String)
    (last_access_unix_ms : Nat) : CacheIndex :=
  let index := index.unschedule_entry_access key
  let ticket := index.maintenance_next_ticket
  { index with
    maintenance_next_ticket := saturating_add index.maintenance_next_ticket 1
    access_schedule := insert ⟨last_access_unix_ms, ticket, key⟩ index.access_schedule
    access_ticket_by_key :=
      index.access_ticket_by_key.insert key ⟨last_access_unix_ms, ticket⟩ }

def CacheIndex.reschedule_entry_access (index : CacheIndex) (key : String)
    (last_access_unix_ms : Nat) : CacheIndex :=
  if index.entries.contains key then index.schedule_entry_access key last_access_unix_ms
  else index

/-- The oldest record of the schedule, `BTreeSet::first`. -/
def CacheIndex.oldest (index : CacheIndex) : Option CacheAccessScheduleEntry :=
  if h : index.access_schedule.Nonempty then some (index.access_schedule.min' h) else none

def CacheIndex.oldest_scheduled_access_unix_ms (index : CacheIndex) : Option Nat :=
  index.oldest.map (·.last_access_unix_ms)

/-- The index after a record has left the schedule, with its ticket. -/
def CacheIndex.pop_scheduled (index : CacheIndex) (scheduled : CacheAccessScheduleEntry) :
    CacheIndex :=
  { index with
    access_schedule := index.access_schedule.erase scheduled
    access_ticket_by_key := index.access_ticket_by_key.erase scheduled.key }

def CacheIndex.pop_oldest_scheduled_entry (index : CacheIndex) :
    Option ((String × Nat) × CacheIndex) :=
  index.oldest.map fun scheduled =>
    ((scheduled.key, scheduled.last_access_unix_ms), index.pop_scheduled scheduled)

/-! ## Entries in and out -/

/-- The entry that the key had before, if any, comes back with the index. -/
def CacheIndex.insert_entry (index : CacheIndex) (key : String) (entry : CacheIndexEntry) :
    CacheIndex × Option CacheIndexEntry :=
  let existing := index.entries[key]?
  let counts := match existing with
    | some existing => decrement_hash_ref index.hash_ref_counts existing.hash
    | none => index.hash_ref_counts
  let index :=
    { index with
      entries := index.entries.insert key entry
      hash_ref_counts := increment_hash_ref counts entry.hash }
  (index.schedule_entry_access key entry.last_access_unix_ms, existing)

def CacheIndex.remove_entry (index : CacheIndex) (key : String) :
    CacheIndex × Option CacheIndexEntry :=
  match index.entries[key]? with
  | none => (index, none)
  | some removed =>
    let index :=
      { index with
        entries := index.entries.erase key
        hash_ref_counts := decrement_hash_ref index.hash_ref_counts removed.hash }
    (index.unschedule_entry_access key, some removed)

/-! ## The variants -/

def add_variant_key (variants : Map (List String)) (base_key key : String) : Map (List String) :=
  let keys := variants.getD base_key []
  variants.insert base_key (if key ∈ keys then keys else keys ++ [key])

def remove_variant_key (variants : Map (List String)) (base_key key : String) :
    Map (List String) :=
  match variants[base_key]? with
  | none => variants
  | some keys =>
    let keys := keys.filter (· ≠ key)
    if keys = [] then variants.erase base_key else variants.insert base_key keys

/-! ## Entries with their accounts

The callers of `insert_entry` and `remove_entry` write out the same lines after them: the size
and the variants follow the entry. -/

/-- `insert_entry`, and then the size and the variants of the entry that went and of the one
that came. -/
def CacheIndex.insert_with_accounts (index : CacheIndex) (key : String)
    (entry : CacheIndexEntry) : CacheIndex × Option CacheIndexEntry :=
  let (index, existing) := index.insert_entry key entry
  let (size, variants) := match existing with
    | some existing =>
      (index.current_size_bytes - existing.body_size_bytes,
        remove_variant_key index.variants existing.base_key key)
    | none => (index.current_size_bytes, index.variants)
  ({ index with
      current_size_bytes := saturating_add size entry.body_size_bytes
      variants := add_variant_key variants entry.base_key key },
    existing)

/-- `remove_entry`, and then the size and the variants of the entry that went. -/
def CacheIndex.remove_with_accounts (index : CacheIndex) (key : String) :
    CacheIndex × Option CacheIndexEntry :=
  match index.remove_entry key with
  | (index, none) => (index, none)
  | (index, some removed) =>
    ({ index with
        current_size_bytes := index.current_size_bytes - removed.body_size_bytes
        variants := remove_variant_key index.variants removed.base_key key },
      some removed)

def CacheIndex.remove_admission_count (index : CacheIndex) (key : String) : CacheIndex :=
  { index with admission_counts := index.admission_counts.erase key }

/-- `entry.last_access_unix_ms = last_access_unix_ms` and the reschedule after it, unless the
entry is missing or was accessed later. -/
def CacheIndex.touch_entry (index : CacheIndex) (key : String) (last_access_unix_ms : Nat) :
    CacheIndex × Bool :=
  match index.entries[key]? with
  | none => (index, false)
  | some entry =>
    if entry.last_access_unix_ms < last_access_unix_ms then
      let entry := { entry with last_access_unix_ms := last_access_unix_ms }
      let index := { index with entries := index.entries.insert key entry }
      (index.reschedule_entry_access key last_access_unix_ms, true)
    else (index, false)

end rginx.cache
