import Std.Data.ExtTreeMap
import Std.Data.ExtTreeSet

/-!
# Identities on the two sides of the bridge

Native objects are known by their address, script objects by the handle a backend issues for
them, wrappers and classes by numbers that only grow. Each kind of identity is a type of its own,
so that a handle is never taken for a wrapper. All of them are ordered by their number, which
lets them key finite maps whose entries come out in that order.
-/

namespace ScriptBridge

/-- A native object, known by its address. -/
structure NativeId where
  address : Nat
  deriving DecidableEq, Repr, Inhabited

/-- A script object as native code holds it. Backends never issue an index twice. -/
structure Handle where
  index : Nat
  deriving DecidableEq, Repr, Inhabited

/-- A wrapper ties one native object to one script object. -/
structure WrapperId where
  index : Nat
  deriving DecidableEq, Repr, Inhabited

/-- A class known to a catalog. -/
structure ClassId where
  index : Nat
  deriving DecidableEq, Repr, Inhabited

section Order

instance : Ord NativeId := ⟨compareOn NativeId.address⟩
instance : Ord Handle := ⟨compareOn Handle.index⟩
instance : Ord WrapperId := ⟨compareOn WrapperId.index⟩
instance : Ord ClassId := ⟨compareOn ClassId.index⟩

instance : Std.TransOrd NativeId := inferInstanceAs (Std.TransCmp (compareOn NativeId.address))
instance : Std.TransOrd Handle := inferInstanceAs (Std.TransCmp (compareOn Handle.index))
instance : Std.TransOrd WrapperId := inferInstanceAs (Std.TransCmp (compareOn WrapperId.index))
instance : Std.TransOrd ClassId := inferInstanceAs (Std.TransCmp (compareOn ClassId.index))

instance : Std.LawfulEqOrd NativeId where
  eq_of_compare {a b} h := by
    cases a; cases b
    exact congrArg NativeId.mk (Std.LawfulEqOrd.eq_of_compare h)

instance : Std.LawfulEqOrd Handle where
  eq_of_compare {a b} h := by
    cases a; cases b
    exact congrArg Handle.mk (Std.LawfulEqOrd.eq_of_compare h)

instance : Std.LawfulEqOrd WrapperId where
  eq_of_compare {a b} h := by
    cases a; cases b
    exact congrArg WrapperId.mk (Std.LawfulEqOrd.eq_of_compare h)

instance : Std.LawfulEqOrd ClassId where
  eq_of_compare {a b} h := by
    cases a; cases b
    exact congrArg ClassId.mk (Std.LawfulEqOrd.eq_of_compare h)

end Order

/-- A handle is shown as its index after a number sign. -/
def Handle.text (h : Handle) : String := "#" ++ toString h.index

end ScriptBridge
