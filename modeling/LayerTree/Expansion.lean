import LayerTree.Host
import LayerTree.Record.Inherit

/-!
Descriptors with their prototypes merged in, all the way down.

A descriptor that names a prototype takes the fields of the prototype, and with them may take
further descriptors that name prototypes themselves. The expansion of a descriptor is the finite
tree that this leads to. A prototype that leads back to itself has none: the way down from a
descriptor to itself never ends, so the search gives up there.
-/

set_option autoImplicit false
set_option relaxedAutoImplicit false

namespace LayerTree

/-- A merged descriptor, and the expansions of the descriptors in its `elements`. -/
inductive Expansion where
  | node (info : Record) (children : List Expansion)

namespace Expansion

def info : Expansion → Record
  | node info _ => info

def children : Expansion → List Expansion
  | node _ children => children

/-- A descriptor merged over the prototype that its `element` field names. -/
def merged (prototype : String → Option Record) (desc : Record) : Record :=
  desc.inherit ((desc.text? "element").bind prototype)

/-- The expansion of a descriptor, if it is at most `depth` levels deep. -/
def within (prototype : String → Option Record) : Nat → Record → Option Expansion
  | 0, _ => none
  | depth + 1, desc =>
    let info := merged prototype desc
    (info.children.mapM (within prototype depth)).map (node info)

/-- The same on the way down from the descriptors `above`. A way that has come back to where it was
leads nowhere, and is left there instead of at `depth`. -/
def beneath (prototype : String → Option Record) : Nat → List Record → Record → Option Expansion
  | 0, _, _ => none
  | depth + 1, above, desc =>
    if desc ∈ above then none
    else
      let info := merged prototype desc
      (info.children.mapM (beneath prototype depth (desc :: above))).map (node info)

/-- No stack has room for more levels than this, as each takes up at least one of its addresses,
which are numbers of 64 bits. -/
def levelLimit : Nat := UInt64.size

/-- The expansion of a descriptor, as deep as a stack can be. -/
def ofDescriptor? (prototype : String → Option Record) (desc : Record) : Option Expansion :=
  beneath prototype levelLimit [] desc

end Expansion

end LayerTree
