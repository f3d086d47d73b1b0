import ScriptBridge.Proofs.Script.Reading
import ScriptBridge.Script.Assignment

/-!
# Defining, assigning and deleting properties

What is written into an object must be known at the moment of writing. Where functions are called
before that, the object has to be pinned.
-/

namespace ScriptBridge.Script

open Machine

variable {t : Prop} {pins : List Datum} {needs : List ObjectId} {id : ObjectId}
  {key : String} {invoke : Invoke}

/-- The objects that a description of a property mentions. -/
def Descriptor.references (d : Descriptor) : List ObjectId :=
  d.value.toList.flatMap Datum.references ++ (d.getter.join.toList ++ d.setter.join.toList)

namespace Descriptor

variable {d : Descriptor} {p : Property} {c : Content}

theorem mem_content (h : id ∈ d.content.references) : id ∈ d.references := by
  obtain ⟨value, writable, getter, setter, enumerable, configurable⟩ := d
  unfold content at h
  split at h
  · cases getter <;> cases setter <;> simp_all [references]
  · cases value <;> simp_all [references]

theorem mem_contentAfter (hc : p.contentAfter? d = some c) (h : id ∈ c.references) :
    id ∈ p.content.references ∨ id ∈ d.references := by
  unfold Property.contentAfter? at hc
  split at hc
  · split at hc
    · next getter setter hp =>
      split at hc
      · cases hc
        obtain ⟨value, writable, getter', setter', enumerable, configurable⟩ := d
        cases getter' <;> cases setter' <;> simp_all [references] <;> grind
      · cases hc
    · cases hc
      exact .inr (mem_content h)
  · split at hc
    · split at hc
      · cases hc
        simp_all [references]
      · cases hc
    · cases hc
      simp_all [references]
    · cases hc
      split at h
      · cases h
      · exact .inl h
    · cases hc
      exact .inl h

theorem redefined_eq_some {after : Property} (h : p.redefined? d = some after) :
    p.contentAfter? d = some after.content := by
  unfold Property.redefined? at h
  cases hc : p.contentAfter? d with
  | none => simp [hc] at h
  | some c =>
    simp only [hc, Option.pure_def, Option.bind_eq_bind, Option.bind_some] at h
    split at h
    · cases h
    · cases h
      rfl

theorem mem_redefined {after : Property} (hafter : p.redefined? d = some after)
    (h : id ∈ after.content.references) : id ∈ p.content.references ∨ id ∈ d.references :=
  mem_contentAfter (redefined_eq_some hafter) h

end Descriptor

namespace Safe

theorem assignLength (hinvoke : Faithful invoke) {value : Datum}
    (hvalue : Known pins needs value.references) (id : ObjectId) :
    Safe t pins needs (Interp.assignLength invoke id value) fun _ ↦ [] := by
  unfold Interp.assignLength
  refine (Safe.toLength hinvoke hvalue).bind fun n ↦ ?_
  refine (Safe.object id).bind fun o ↦ ?_
  dsimp only
  split
  · exact .ret known_nil
  · refine (Safe.edit (.withLength _) known_nil id).bind fun _ ↦ ?_
    split
    · exact .ret known_nil
    · exact .ret known_nil

theorem defineNew (hkey : key = payloadKey → t) {d : Descriptor}
    (hd : Known pins needs d.references) (id : ObjectId) :
    Safe t pins needs (Interp.defineNew id key d) fun _ ↦ needs := by
  unfold Interp.defineNew
  refine ((Safe.object id).giving fun _ ↦ known_append_right).bind fun o ↦ ?_
  dsimp only
  split
  · exact .done _
  · split
    · exact .done _
    · have hcontent : Known pins needs d.content.references := fun x hx ↦
        hd x (Descriptor.mem_content hx)
      exact (Safe.edit (.grow hkey) hcontent id).bind fun _ ↦ .done _

theorem defineLength (hinvoke : Faithful invoke) {d : Descriptor}
    (hd : Known pins needs d.references) (id : ObjectId) :
    Safe t pins needs (Interp.defineLength invoke id d) fun _ ↦ [] := by
  have hafter (fault : Option Fault) : Safe t pins [] (do
      if d.writable = some false then Interp.update id Object.fixLength
      return fault) fun _ ↦ [] := by
    split
    · exact (Safe.edit .fixLength known_nil id).bind fun _ ↦ .done _
    · exact .done _
  unfold Interp.defineLength
  cases hvalue : d.value with
  | some value =>
    exact (Safe.assignLength hinvoke (by grind [Descriptor.references]) id).bind hafter
  | none => exact (hafter none).needing known_nil

theorem define (hinvoke : Faithful invoke) (hkey : key = payloadKey → t) {d : Descriptor}
    (hid : Known pins needs [id]) (hd : Known pins needs d.references) :
    Safe t pins needs (Interp.define invoke id key d) fun _ ↦ [] := by
  unfold Interp.define
  refine (Safe.objectAt hkey id).bind fun o ↦ ?_
  have hid' : Known pins (o.refsAt key ++ needs) [id] := hid.mono known_append_right
  have hd' : Known pins (o.refsAt key ++ needs) d.references := hd.mono known_append_right
  split
  · exact (Safe.defineNew hkey hd' id).giving fun _ ↦ known_nil
  · next p hp =>
    split
    · exact .ret known_nil
    · refine ((Safe.object id).giving fun _ ↦ known_append_right).bind fun o' ↦ ?_
      split
      · exact .defineLength hinvoke hd' id
      · refine (Safe.settleProperty hid' hkey).bind fun _ ↦ ?_
        refine (Safe.objectAt hkey id).bind fun o'' ↦ ?_
        split
        · exact .ret known_nil
        · next after hafter =>
          have hrefs : Known pins (o''.refsAt key ++ (o.refsAt key ++ needs))
              after.content.references := by
            intro x hx
            rcases Descriptor.mem_redefined hafter hx with hx | hx
            · cases hown : o''.own? key with
              | none =>
                rw [hown, Option.getD_none, ← Object.refsAt_eq hp] at hx
                simp [hx]
              | some q =>
                rw [hown, Option.getD_some, ← Object.refsAt_eq hown] at hx
                simp [hx]
            · exact hd'.mono known_append_right x hx
          exact (Safe.edit (.put hkey) hrefs id).bind fun _ ↦ .ret known_nil

theorem defineOrThrow (hinvoke : Faithful invoke) (hkey : key = payloadKey → t) {d : Descriptor}
    (hid : Known pins needs [id]) (hd : Known pins needs d.references) :
    Safe t pins needs (Interp.defineOrThrow invoke id key d) fun _ ↦ [] := by
  unfold Interp.defineOrThrow
  refine (Safe.define hinvoke hkey hid hd).bind fun fault ↦ ?_
  split
  · exact .done _
  · exact .raiseFault _

/-! ## Descriptions -/

variable {description : ObjectId}

theorem field (hinvoke : Faithful invoke) (h : Known pins needs [description]) (key : String) :
    Safe t pins needs (Interp.field? invoke description key)
      fun d ↦ d.toList.flatMap Datum.references ++ [description] := by
  unfold Interp.field?
  refine Safe.look.bind fun found ↦ ?_
  split
  · exact (Safe.read hinvoke h key).map fun d ↦ by grind
  · exact .ret (by grind)

theorem functionField (hinvoke : Faithful invoke) (h : Known pins needs [description])
    (key : String) (fault : Fault) :
    Safe t pins needs (Interp.functionField? invoke description key fault)
      fun f ↦ f.join.toList ++ [description] := by
  unfold Interp.functionField?
  refine (Safe.field hinvoke h key).bind fun d ↦ ?_
  split
  · exact .ret (by grind)
  · exact .ret (by grind)
  · refine Safe.function_bind (.raiseFault _) fun id hid ↦ ?_
    exact .ret (by grind)

theorem toDescriptor (hinvoke : Faithful invoke) (h : Known pins needs [description]) :
    Safe t pins needs (Interp.toDescriptor invoke description) Descriptor.references := by
  unfold Interp.toDescriptor
  refine (Safe.field hinvoke h "enumerable").bind fun enumerable ↦ ?_
  refine (Safe.field hinvoke (by grind) "configurable").bind fun configurable ↦ ?_
  refine (Safe.field hinvoke (by grind) "value").bind fun value ↦ ?_
  refine Safe.holding (by grind) ?_
  refine (Safe.field hinvoke (by grind) "writable").bind fun writable ↦ ?_
  refine (Safe.functionField hinvoke (by grind) "get" _).bind fun getter ↦ ?_
  refine Safe.holding (by cases getter.join <;> simp) ?_
  refine (Safe.functionField hinvoke (by grind) "set" _).bind fun setter ↦ ?_
  dsimp only
  split
  · exact .raiseFault_bind
  · refine .ret ?_
    rw [Descriptor.references]
    cases getter.join <;> grind

theorem freeze (hid : Known pins needs [id]) :
    Safe t pins needs (Interp.freeze id) fun _ ↦ needs := by
  unfold Interp.freeze
  exact (Safe.settleProperty hid (by simp [payloadKey])).bind fun _ ↦ .edit .frozen known_nil id

/-! ## Assignments -/

variable {receiver value : Datum} {p : Property}

theorem assignNew (hkey : key = payloadKey → t) (hvalue : Known pins needs value.references) :
    Safe t pins needs (Interp.assignNew receiver key value) fun _ ↦ needs := by
  unfold Interp.assignNew
  split
  · next id =>
    refine ((Safe.object id).giving fun _ ↦ known_append_right).bind fun o ↦ ?_
    split
    · exact .done _
    · split
      · exact .done _
      · exact (Safe.edit (.grow hkey) (by simpa using hvalue) id).bind fun _ ↦ .done _
  · exact .done _

theorem assignData (hinvoke : Faithful invoke) (hkey : key = payloadKey → t) (owner : ObjectId)
    (hvalue : Known pins needs value.references) :
    Safe t pins needs (Interp.assignData invoke owner p receiver key value) fun _ ↦ [] := by
  unfold Interp.assignData
  refine ((Safe.object owner).giving fun _ ↦ known_append_right).bind fun o ↦ ?_
  split
  · exact .assignLength hinvoke hvalue owner
  · split
    · exact .ret known_nil
    · split
      · refine (Safe.edit (.put hkey) ?_ owner).bind fun _ ↦ .ret known_nil
        exact hvalue
      · exact (Safe.assignNew hkey hvalue).giving fun _ ↦ known_nil

theorem assignFrom (hinvoke : Faithful invoke) {start : ObjectId}
    (h : Known pins needs (start :: (receiver.references ++ value.references))) :
    Safe t pins needs (Interp.assignFrom invoke start receiver key value) fun _ ↦ [] := by
  unfold Interp.assignFrom
  refine Safe.touch_bind ?_
  have hkey : key = payloadKey → t ∨ key = payloadKey := .inr
  refine (Safe.find hkey (by grind)).bind fun found ↦ ?_
  split
  · exact (Safe.assignNew hkey (by grind)).giving fun _ ↦ known_nil
  · next owner p =>
    split
    · exact (hinvoke (by grind)).bind fun _ ↦ .ret known_nil
    · exact .ret known_nil
    · refine (Safe.settleProperty (by grind) hkey).bind fun _ ↦ ?_
      exact .assignData hinvoke hkey owner (by grind)
    · exact .assignData hinvoke hkey owner (by grind)

theorem assign (hinvoke : Faithful invoke) (h : Known pins needs (id :: value.references)) :
    Safe t pins needs (Interp.assign invoke id key value) fun _ ↦ [] :=
  .assignFrom hinvoke (by grind)

theorem assignOrThrow (hinvoke : Faithful invoke) (h : Known pins needs (id :: value.references)) :
    Safe t pins needs (Interp.assignOrThrow invoke id key value) fun _ ↦ [] := by
  unfold Interp.assignOrThrow
  refine (Safe.assign hinvoke h).bind fun fault ↦ ?_
  split
  · exact .done _
  · exact .raiseFault _

theorem assignOf (hinvoke : Faithful invoke) {target : Datum}
    (h : Known pins needs (target.references ++ value.references)) :
    Safe t pins needs (Interp.assignOf invoke target key value) fun _ ↦ [] := by
  unfold Interp.assignOf
  split
  · exact .assign hinvoke (by grind)
  · exact .raiseFault _
  · exact .raiseFault _
  · split
    · exact .assignFrom hinvoke (by grind)
    · exact .ret known_nil

theorem delete (id : ObjectId) (key : String) :
    Safe t pins needs (Interp.delete id key) fun _ ↦ needs := by
  unfold Interp.delete
  refine Safe.touch_bind ?_
  refine ((Safe.object id).giving fun _ ↦ known_append_right).bind fun o ↦ ?_
  split
  · exact .done _
  · split
    · exact (Safe.edit (.erase .inr) known_nil id).bind fun _ ↦ .done _
    · exact .done _

theorem setPrototype {prototype : Option ObjectId} (h : Known pins needs prototype.toList)
    (id : ObjectId) : Safe t pins needs (Interp.setPrototype id prototype) fun _ ↦ needs := by
  have hchange : Safe t pins needs (Interp.update id ({ · with prototype })) fun _ ↦ needs :=
    .edit (.withPrototype prototype) h id
  unfold Interp.setPrototype
  refine ((Safe.object id).giving fun _ ↦ known_append_right).bind fun o ↦ ?_
  dsimp only
  split
  · exact .done _
  · split
    · exact .raiseFault_bind
    · split
      · exact .raiseFault_bind
      · split
        · refine Safe.look.bind fun chain ↦ ?_
          split
          · exact .raiseFault_bind
          · exact hchange
        · exact hchange

end Safe

end ScriptBridge.Script
