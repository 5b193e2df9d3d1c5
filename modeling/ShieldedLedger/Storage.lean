import ShieldedLedger.General.OrderedTable
import ShieldedLedger.Tree

/-!
# Persistent ledger storage

Three tables make the permanent state durable: nullifiers, tree leaves by
position, and two counters.  The database is a dependency, and so a parameter: an
implementation of tables ordered by key, in which a write transaction is applied
as a whole.
-/

namespace ShieldedLedger

open OrderedTables (Table)

/-- `redb`, the database. -/
abbrev Redb := OrderedTables

inductive StoreError where
  | db (message : String)
  deriving DecidableEq

/-- The tables of the database. -/
structure Store [Redb] where
  nullifiers : Table (List UInt8) ℕ
  leaves : Table ℕ (List UInt8)
  height : Option ℕ
  supply : Option UInt64

/-- Read a stored value back as a 32-byte array. -/
def readBytes32 (message : String) (value : List UInt8) : Except StoreError Bytes32 :=
  if len : value.length = 32 then .ok ⟨value, len⟩ else .error (.db message)

namespace Store

variable [Redb]

/-- A store whose tables exist and are empty. -/
def «open» : Store := ⟨OrderedTables.empty, OrderedTables.empty, none, none⟩

/-- Persist appended leaves, new nullifiers and the counters in one write. -/
def commitCheckpoint (store : Store) (height : ℕ) (supply : UInt64)
    (newLeaves : List (ℕ × Commitment)) (newNullifiers : List Nullifier) : Store where
  leaves := newLeaves.foldl
    (fun table entry => OrderedTables.insert table entry.1 entry.2.bytes.toList) store.leaves
  nullifiers := newNullifiers.foldl
    (fun table nf => OrderedTables.insert table nf.bytes.toList height) store.nullifiers
  height := some height
  supply := some supply

def containsNullifier (store : Store) (nf : Nullifier) : Bool :=
  (OrderedTables.find? store.nullifiers nf.bytes.toList).isSome

def nullifierCount (store : Store) : ℕ := OrderedTables.len store.nullifiers

/-- Load all leaves in position order. -/
def loadLeaves (store : Store) : Except StoreError (List Bytes32) :=
  (OrderedTables.iter store.leaves).mapM fun entry => readBytes32 "bad leaf length" entry.2

/-- Load every persisted nullifier. -/
def loadNullifiers (store : Store) : Except StoreError (List Nullifier) :=
  (OrderedTables.iter store.nullifiers).mapM fun entry =>
    (readBytes32 "bad nullifier length" entry.1).map Nullifier.mk

/-- Rebuild the commitment tree from persisted leaves. -/
def loadTree (store : Store) : Except StoreError CommitmentTree :=
  store.loadLeaves.map CommitmentTree.fromRawLeaves

end Store

end ShieldedLedger
