import Mosaic.Region.Basic

/-! Regions in the order of their insertion, which breaks every tie between them. -/
namespace Mosaic

structure RegionStore (W : Type) where
  regions : List (Region W) := []
  /-- The number of the next identifier. -/
  next : Nat := 1
deriving DecidableEq

namespace RegionStore

variable {W : Type}

def size (s : RegionStore W) : Nat := s.regions.length

def ids (s : RegionStore W) : List RegionId := s.regions.map (·.id)

def bounds (s : RegionStore W) : List Rect := s.regions.map (·.bounds)

def get? (s : RegionStore W) (id : RegionId) : Option (Region W) := s.regions.find? (·.id = id)

def idxOf? (s : RegionStore W) (id : RegionId) : Option Nat := s.regions.findIdx? (·.id = id)

def contains (s : RegionStore W) (id : RegionId) : Bool := (s.get? id).isSome

/-- Adds a region behind all others and returns its identifier. -/
def insert (s : RegionStore W) (widget : W) (bounds : Rect) : RegionId × RegionStore W :=
  (⟨s.next⟩, {
    regions := s.regions ++ [{ id := ⟨s.next⟩, widget, bounds }]
    next := min (s.next + 1) RegionId.last })

/-- Takes a region out; the others keep their order. -/
def erase (s : RegionStore W) (id : RegionId) : RegionStore W :=
  { s with regions := s.regions.eraseP (·.id = id) }

/-- Changes the first region with this identifier, if there is one. -/
def modify (s : RegionStore W) (id : RegionId) (f : Region W → Region W) : RegionStore W :=
  { s with regions := s.regions.modify (s.regions.findIdx (·.id = id)) f }

def setWidget (s : RegionStore W) (id : RegionId) (widget : W) : RegionStore W :=
  s.modify id fun r => { r with widget }

def setMinSize (s : RegionStore W) (id : RegionId) (size : Option Size) : RegionStore W :=
  s.modify id fun r => { r with minSize := size }

def setMaxSize (s : RegionStore W) (id : RegionId) (size : Option Size) : RegionStore W :=
  s.modify id fun r => { r with maxSize := size }

def placeAt (s : RegionStore W) (position : Nat) (bounds : Rect) : RegionStore W :=
  { s with regions := s.regions.modify position (·.place bounds) }

def PlaceAtChanges (s : RegionStore W) (position : Nat) (bounds : Rect) : Prop :=
  ∃ r ∈ s.regions[position]?, r.bounds ≠ bounds

instance (s : RegionStore W) (position : Nat) (bounds : Rect) :
    Decidable (s.PlaceAtChanges position bounds) :=
  match h : s.regions[position]? with
  | none => .isFalse (by simp [PlaceAtChanges, h])
  | some r => decidable_of_iff (r.bounds ≠ bounds) (by simp [PlaceAtChanges, h])

/-- Gives the regions new bounds, in order; regions without any keep theirs. -/
def placeAll : List (Region W) → List Rect → List (Region W)
  | r :: rs, b :: bs => r.place b :: placeAll rs bs
  | rs, _ => rs

def place (s : RegionStore W) (bounds : List Rect) : RegionStore W :=
  { s with regions := placeAll s.regions bounds }

/-- The identifiers of the regions whose bounds differ from those given, in order. -/
def changedSince (s : RegionStore W) (before : List Rect) : List RegionId :=
  (s.regions.zip before).filterMap fun (r, b) => if r.bounds = b then none else some r.id

def dirtyIds (s : RegionStore W) : List RegionId := (s.regions.filter (·.dirty)).map (·.id)

def clean (s : RegionStore W) : RegionStore W :=
  { s with regions := s.regions.map fun r => { r with dirty := false } }

end RegionStore

end Mosaic
