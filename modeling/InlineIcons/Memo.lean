import InlineIcons.Fingerprint

/-!
Memo tables: for each key the last value computed for it and the fingerprint of what it was computed
from. A value is reused only while the fingerprint is the same.
-/
namespace InlineIcons

structure MemoEntry (κ α : Type) where
  key : κ
  fingerprint : Fingerprint
  value : α
  deriving Repr

structure MemoStats where
  reused : Nat
  computed : Nat
  deriving DecidableEq, Repr, Inhabited

namespace MemoStats

def zero : MemoStats := ⟨0, 0⟩

def toJson (s : MemoStats) : Json := .obj [("reused", .num s.reused), ("computed", .num s.computed)]

end MemoStats

structure Memo (κ α : Type) where
  entries : List (MemoEntry κ α)
  deriving Repr

namespace Memo

variable {κ α : Type}

def empty : Memo κ α := ⟨[]⟩

instance : Inhabited (Memo κ α) := ⟨empty⟩

variable [DecidableEq κ]

def find? (m : Memo κ α) (key : κ) : Option (MemoEntry κ α) := m.entries.find? (·.key = key)

/-- The value of a key, if it was computed from the given fingerprint. -/
def fresh? (m : Memo κ α) (key : κ) (fingerprint : Fingerprint) : Option α :=
  match m.find? key with
  | some e => if e.fingerprint = fingerprint then some e.value else none
  | none => none

def insert (m : Memo κ α) (key : κ) (fingerprint : Fingerprint) (value : α) : Memo κ α :=
  ⟨⟨key, fingerprint, value⟩ :: m.entries.filter (·.key ≠ key)⟩

/-- Drops what belongs to no key of the list. -/
def retain (m : Memo κ α) (keys : List κ) : Memo κ α := ⟨m.entries.filter (·.key ∈ keys)⟩

def size (m : Memo κ α) : Nat := m.entries.length

/-- Reuses a value or computes and keeps a new one; the last part counts which. -/
def getOrCompute (m : Memo κ α) (stats : MemoStats) (key : κ) (fingerprint : Fingerprint)
    (compute : Unit → α) : α × Memo κ α × MemoStats :=
  match m.fresh? key fingerprint with
  | some value => (value, m, { stats with reused := stats.reused + 1 })
  | none =>
    let value := compute ()
    (value, m.insert key fingerprint value, { stats with computed := stats.computed + 1 })

/-- One thing that a stage turns into a value. -/
structure Item (κ ι : Type) where
  key : κ
  fingerprint : Fingerprint
  input : ι

variable {ι : Type}

/-- The values of some items, reused where the table before the stage is fresh. -/
def outputs (m : Memo κ α) (compute : ι → α) (items : List (Item κ ι)) : List α :=
  items.map fun i => (m.fresh? i.key i.fingerprint).getD (compute i.input)

def stale (m : Memo κ α) (items : List (Item κ ι)) : List (Item κ ι) :=
  items.filter fun i => (m.fresh? i.key i.fingerprint).isNone

/-- Runs a stage: its values in order, the table afterwards, which holds these items only, and the
counts. -/
def stage (m : Memo κ α) (compute : ι → α) (items : List (Item κ ι)) :
    List α × Memo κ α × MemoStats :=
  let stale := m.stale items
  let table := stale.foldl (fun t i => t.insert i.key i.fingerprint (compute i.input)) m
  (m.outputs compute items, table.retain (items.map Item.key),
    ⟨items.length - stale.length, stale.length⟩)

end Memo
end InlineIcons
