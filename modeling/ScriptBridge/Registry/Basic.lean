import ScriptBridge.Identity

/-!
# The registry of wrappers

A wrapper ties a native object to the handle of its script object. The registry finds wrappers by
native object and by handle, and keeps the ownership edges between them in both directions, so
that a removal only visits the edges that touch the removed wrapper. Numbers of wrappers only
grow, hence the order of the numbers is the order of creation. Nothing here talks to a script
engine.
-/

namespace ScriptBridge

/-- What is known about one script object that native code can see. -/
structure Wrapper where
  native : NativeId
  handle : Handle
  /-- How often native code asked for the script object to be kept. -/
  roots : Nat
  hasPrivateData : Bool
  /-- The wrappers this one keeps alive. -/
  children : Std.ExtTreeSet WrapperId
  /-- The wrappers that keep this one alive. -/
  parents : Std.ExtTreeSet WrapperId

namespace Wrapper

/-- Roots are counted in 32 bits. At this bound the count stays. -/
def rootLimit : Nat := 4294967295

/-- A new wrapper without edges. -/
def fresh (native : NativeId) (handle : Handle) (rooted : Bool) : Wrapper where
  native := native
  handle := handle
  roots := if rooted then 1 else 0
  hasPrivateData := false
  children := ∅
  parents := ∅

def isRooted (w : Wrapper) : Bool := 0 < w.roots

def addRoot (w : Wrapper) : Wrapper := { w with roots := min (w.roots + 1) rootLimit }

theorem roots_addRoot (w : Wrapper) : w.addRoot.roots = min (w.roots + 1) rootLimit :=
  rfl

theorem roots_addRoot_pos (w : Wrapper) : 0 < w.addRoot.roots := by
  rw [roots_addRoot, rootLimit]
  omega

/-- Only the first root gives a count of one. -/
theorem roots_addRoot_eq_one_iff {w : Wrapper} : w.addRoot.roots = 1 ↔ w.roots = 0 := by
  rw [roots_addRoot, rootLimit]
  omega

def dropRoot (w : Wrapper) : Wrapper := { w with roots := w.roots - 1 }

@[simp]
theorem roots_dropRoot (w : Wrapper) : w.dropRoot.roots = w.roots - 1 :=
  rfl

def hasChild (w : Wrapper) (child : WrapperId) : Bool := w.children.contains child

def addChild (child : WrapperId) (w : Wrapper) : Wrapper :=
  { w with children := w.children.insert child }

def addParent (parent : WrapperId) (w : Wrapper) : Wrapper :=
  { w with parents := w.parents.insert parent }

def dropChild (child : WrapperId) (w : Wrapper) : Wrapper :=
  { w with children := w.children.erase child }

def dropParent (parent : WrapperId) (w : Wrapper) : Wrapper :=
  { w with parents := w.parents.erase parent }

end Wrapper

/-- The wrappers and their two indexes. -/
structure Registry where
  byNative : Std.ExtTreeMap NativeId WrapperId
  byHandle : Std.ExtTreeMap Handle WrapperId
  wrappers : Std.ExtTreeMap WrapperId Wrapper
  /-- The number of the next wrapper. -/
  next : Nat

namespace Registry

def empty : Registry where
  byNative := ∅
  byHandle := ∅
  wrappers := ∅
  next := 0

instance : Inhabited Registry := ⟨empty⟩

/-- Records a wrapper and gives its number. The native object and the handle are mapped to it,
whatever they were mapped to before; the wrappers of earlier mappings stay. -/
def insert (r : Registry) (native : NativeId) (handle : Handle) (rooted : Bool) :
    WrapperId × Registry :=
  let id : WrapperId := ⟨r.next⟩
  (id, { byNative := r.byNative.insert native id
         byHandle := r.byHandle.insert handle id
         wrappers := r.wrappers.insert id (.fresh native handle rooted)
         next := r.next + 1 })

def find? (r : Registry) (native : NativeId) : Option WrapperId := r.byNative[native]?

def findByHandle? (r : Registry) (handle : Handle) : Option WrapperId := r.byHandle[handle]?

def get? (r : Registry) (id : WrapperId) : Option Wrapper := r.wrappers[id]?

@[simp]
theorem get?_insert_self (r : Registry) (native : NativeId) (handle : Handle) (rooted : Bool) :
    (r.insert native handle rooted).2.get? (r.insert native handle rooted).1 =
      some (.fresh native handle rooted) := by
  simp [insert, get?]

@[simp]
theorem find?_insert_self (r : Registry) (native : NativeId) (handle : Handle) (rooted : Bool) :
    (r.insert native handle rooted).2.find? native = some (r.insert native handle rooted).1 := by
  simp [insert, find?]

/-- The mapped native objects with their wrappers. -/
def nativeEntries (r : Registry) : List (NativeId × WrapperId) := r.byNative.toList

/-- All wrappers, in the order of their creation. -/
def entries (r : Registry) : List (WrapperId × Wrapper) := r.wrappers.toList

/-- Changes one wrapper, if it is there. -/
def modify (r : Registry) (id : WrapperId) (f : Wrapper → Wrapper) : Registry :=
  { r with wrappers := r.wrappers.modify id f }

theorem get?_modify (r : Registry) (id other : WrapperId) (f : Wrapper → Wrapper) :
    (r.modify id f).get? other = if id = other then (r.get? other).map f else r.get? other := by
  simp only [modify, get?, Std.ExtTreeMap.getElem?_modify, Std.LawfulEqCmp.compare_eq_iff_eq]
  split
  · next h => rw [h]
  · rfl

@[simp]
theorem find?_modify (r : Registry) (id : WrapperId) (f : Wrapper → Wrapper) (native : NativeId) :
    (r.modify id f).find? native = r.find? native :=
  rfl

@[simp]
theorem findByHandle?_modify (r : Registry) (id : WrapperId) (f : Wrapper → Wrapper)
    (handle : Handle) : (r.modify id f).findByHandle? handle = r.findByHandle? handle :=
  rfl

/-- The root count of a wrapper. -/
def roots? (r : Registry) (id : WrapperId) : Option Nat := (r.get? id).map Wrapper.roots

/-- Adds a root. Gives the new count, or nothing for an unknown wrapper. -/
def root (r : Registry) (id : WrapperId) : Option Nat × Registry :=
  let r := r.modify id .addRoot
  (r.roots? id, r)

/-- Takes a root away, if there is one. Gives the new count, or nothing for an unknown wrapper. -/
def unroot (r : Registry) (id : WrapperId) : Option Nat × Registry :=
  let r := r.modify id .dropRoot
  (r.roots? id, r)

/-- Takes all roots away. -/
def clearRoots (r : Registry) (id : WrapperId) : Registry := r.modify id ({ · with roots := 0 })

/-- Whether the edge is there. -/
def hasEdge (r : Registry) (owner child : WrapperId) : Bool :=
  (r.get? owner).any (·.hasChild child)

/-- Adds an edge. Tells whether it is new, which takes both wrappers to be known. -/
def attach (r : Registry) (owner child : WrapperId) : Bool × Registry :=
  if r.wrappers.contains child && r.wrappers.contains owner && !r.hasEdge owner child then
    (true, (r.modify owner (Wrapper.addChild child)).modify child (Wrapper.addParent owner))
  else (false, r)

/-- Takes an edge away. Tells whether it was there. -/
def detach (r : Registry) (owner child : WrapperId) : Bool × Registry :=
  if r.hasEdge owner child then
    (true, (r.modify owner (Wrapper.dropChild child)).modify child (Wrapper.dropParent owner))
  else (false, r)

/-- Notes that the script object carries a native payload. -/
def markPrivateData (r : Registry) (id : WrapperId) : Registry :=
  r.modify id ({ · with hasPrivateData := true })

/-- Removes a wrapper with every edge that touches it. A mapping of its native object or its
handle goes with it unless a later wrapper has taken it over. -/
def remove (r : Registry) (id : WrapperId) : Option Wrapper × Registry :=
  match r.get? id with
  | none => (none, r)
  | some w =>
    let bare : Registry :=
      { r with
        byNative := if r.find? w.native = some id then r.byNative.erase w.native else r.byNative
        byHandle := if r.findByHandle? w.handle = some id then r.byHandle.erase w.handle
          else r.byHandle
        wrappers := r.wrappers.erase id }
    let unowned := w.parents.toList.foldl (fun r parent ↦ r.modify parent (.dropChild id)) bare
    (some w, w.children.toList.foldl (fun r child ↦ r.modify child (.dropParent id)) unowned)

/-- Removes everything. Gives the wrappers in the order of their creation. -/
def drain (r : Registry) : List Wrapper × Registry :=
  (r.entries.map Prod.snd, { r with byNative := ∅, byHandle := ∅, wrappers := ∅ })

/-- The number of mapped native objects. -/
def nativeCount (r : Registry) : Nat := r.byNative.size

/-- The number of wrappers. -/
def size (r : Registry) : Nat := r.wrappers.size

def isEmpty (r : Registry) : Bool := r.byNative.isEmpty && r.wrappers.isEmpty

end Registry

end ScriptBridge
