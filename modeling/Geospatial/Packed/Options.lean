import Geospatial.Layout

/-!
# Options of packed sequences

A packed sequence is made with two choices: the layout of its coordinates, and how long the list of
points that it hands out is kept for the next reader.
-/

namespace Geospatial

/-- How long a list of points is kept. -/
inductive CachePolicy where
  /-- Until the sequence is written to. -/
  | retained
  /-- As long as a reader still holds it. -/
  | reclaimable
  /-- Not at all: every reader gets a list of its own. -/
  | disabled
deriving DecidableEq, Repr

/-- Keeping the list until the next write is the default. -/
instance : Inhabited CachePolicy := ⟨.retained⟩

/-- The policy's name. -/
def CachePolicy.text : CachePolicy → String
  | .retained => "Retained"
  | .reclaimable => "Reclaimable"
  | .disabled => "Disabled"

/-- The choices that a packed sequence is made with. -/
structure SequenceOptions where
  layout : Layout
  cache : CachePolicy
deriving DecidableEq, Repr

namespace SequenceOptions

instance : Inhabited SequenceOptions := ⟨⟨default, default⟩⟩

/-- The default options for a layout. -/
def ofLayout (layout : Layout) : SequenceOptions :=
  { (default : SequenceOptions) with layout }

def withLayout (o : SequenceOptions) (layout : Layout) : SequenceOptions :=
  { o with layout }

def withCache (o : SequenceOptions) (cache : CachePolicy) : SequenceOptions :=
  { o with cache }

@[simp] theorem withLayout_layout (o : SequenceOptions) (d : Layout) :
    (o.withLayout d).layout = d := rfl

@[simp] theorem withLayout_cache (o : SequenceOptions) (d : Layout) :
    (o.withLayout d).cache = o.cache := rfl

end SequenceOptions

end Geospatial
