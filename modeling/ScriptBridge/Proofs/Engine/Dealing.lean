import ScriptBridge.Backend

/-!
# What passes between native code and a backend

Native code uses a backend by one request after the other, and while a request is carried out it may
be asked to update its weak references. What passes is written down: the notices, the handles that
native code gets as results, those that it has rooted, and what it gives up of them.
-/

namespace ScriptBridge

/-- The notice is that of the end of a payload, given by tag and text. -/
def Notice.finalizes (payload : String × String) : Notice → Bool
  | .finalized tag text => tag = payload.1 && text = payload.2
  | _ => false

/-- The handles that a notice tells of. -/
def Notice.handles : Notice → List Handle
  | .construct _ arguments => arguments.filterMap Value.asObject?
  | _ => []

/-- What native code gives up of a handle, which it may never have got. -/
inductive Waiver where
  /-- The root of the handle. -/
  | root (handle : Handle)
  /-- The handle itself. -/
  | handle (handle : Handle)

/-- Something that passes between native code and a backend. -/
inductive Exchange where
  | notice (notice : Notice)
  /-- Native code gets a handle as a result. -/
  | handed (handle : Handle)
  /-- Native code has a handle rooted. -/
  | rooted (handle : Handle)
  | waived (waiver : Waiver)

namespace Exchange

/-- The exchange is the notice of the end of a payload, given by tag and text. -/
def finalizes (payload : String × String) : Exchange → Bool
  | .notice n => n.finalizes payload
  | _ => false

/-- The handles that native code comes to see. -/
def issued : Exchange → List Handle
  | .notice n => n.handles
  | .handed h => [h]
  | .rooted _ | .waived _ => []

/-- What native code has to give back, once something more has passed. -/
def owing (handles : List Handle) : Exchange → List Handle
  | .handed h => handles ++ [h]
  | .waived (.handle h) => handles.filter (· ≠ h)
  | .notice _ | .rooted _ | .waived (.root _) => handles

/-- The handles that are rooted, once something more has passed. -/
def rooting (handles : List Handle) : Exchange → List Handle
  | .handed h | .rooted h => handles ++ [h]
  | .waived (.root h) | .waived (.handle h) => handles.filter (· ≠ h)
  | .notice _ => handles

/-- The handle that the result of a request hands over, if it is an object. -/
def ofResult (result : Except Failure Value) : List Exchange :=
  ((result.toOption.bind Value.asObject?).map handed).toList

/-- A request to root a handle has it rooted if it succeeds. -/
def ofRooting (handle : Handle) : Except Failure Unit → List Exchange
  | .ok () => [rooted handle]
  | .error _ => []

end Exchange

namespace Backend

variable {σ α : Type} [Backend σ]

/-- Native code updates its weak references: as it likes, it asks about handles, takes their roots
away, and gives them back. -/
inductive Updated : σ → List Notice → List Waiver → σ → Prop
  | rest (s : σ) : Updated s [] [] s
  | queryDead {s s' : σ} {notices : List Notice} {waived : List Waiver}
    (h : Updated s notices waived s') (handle : Handle) :
    Updated s (notices ++ (queryDead handle s').events) waived (queryDead handle s').state
  | tearDown {s s' : σ} {notices : List Notice} {waived : List Waiver}
    (h : Updated s notices waived s') (handle : Handle) :
    Updated s (notices ++ (tearDown handle s').events) (waived ++ [.root handle])
      (tearDown handle s').state
  | forget {s s' : σ} {notices : List Notice} {waived : List Waiver}
    (h : Updated s notices waived s') (handle : Handle) :
    Updated s (notices ++ (forget handle s').events) (waived ++ [.handle handle])
      (forget handle s').state

/-- A report is carried through, with whatever native code does at its updates. -/
inductive Carried : Report σ α → List Notice → List Waiver → α → σ → Prop
  | done (o : Outcome σ α) : Carried (.done o) o.events [] o.result o.state
  | events {next : Report σ α} {more : List Notice} {waived : List Waiver} {a : α} {s : σ}
    (notices : List Notice) (h : Carried next more waived a s) :
    Carried (.events notices next) (notices ++ more) waived a s
  | phase {next : Report σ α} {notices : List Notice} {waived : List Waiver} {a : α} {s : σ}
    (p : Phase) (h : Carried next notices waived a s) :
    Carried (.phase p next) notices waived a s
  | update {s s' s'' : σ} {resume : σ → Report σ α} {notices more : List Notice}
    {first second : List Waiver} {a : α} (hupdate : Updated s notices first s')
    (h : Carried (resume s') more second a s'') :
    Carried (.update s resume) (notices ++ more) (first ++ second) a s''

/-- A cycle that ends a report is an update. -/
theorem Carried.of_cycle {s s' : σ} {result a : α} {notices : List Notice} {waived : List Waiver}
    (h : Carried (Report.cycle s fun s ↦ .done ⟨result, s, []⟩) notices waived a s') :
    a = result ∧ Updated s notices waived s' := by
  obtain ⟨⟩ | ⟨⟩ | ⟨-, h⟩ | ⟨⟩ := h
  obtain ⟨⟩ | ⟨⟩ | ⟨⟩ | ⟨hupdate, h⟩ := h
  obtain ⟨⟩ | ⟨⟩ | ⟨-, h⟩ | ⟨⟩ := h
  obtain ⟨⟩ | ⟨⟩ | ⟨⟩ | ⟨⟩ := h
  rw [List.append_nil, List.append_nil]
  exact ⟨rfl, hupdate⟩

/-- Native code makes one request. A handle that it gave back at an update is gone, even if the
result hands it over. -/
inductive Dealing : σ → List Exchange → σ → Prop
  | evaluate {s s' : σ} {notices : List Notice} {waived : List Waiver}
    {result : Except Failure Value} (source : Script.Source) (file : String)
    (h : Carried (evaluate source file s) notices waived result s') :
    Dealing s (notices.map .notice ++ Exchange.ofResult result ++ waived.map .waived) s'
  | collect {s s' : σ} {notices : List Notice} {waived : List Waiver}
    (h : Carried (collect s) notices waived () s') :
    Dealing s (notices.map .notice ++ waived.map .waived) s'
  | takePending (s : σ) : Dealing s ((takePending s).events.map .notice) (takePending s).state
  | globalObject (s : σ) : Dealing s ((globalObject s).events.map .notice) (globalObject s).state
  | createObject (s : σ) : Dealing s
      ((createObject s).events.map .notice ++
        Exchange.ofResult ((createObject s).result.map .object)) (createObject s).state
  | getProperty (target : Handle) (key : String) (s : σ) : Dealing s
      ((getProperty target key s).events.map .notice ++
        Exchange.ofResult (getProperty target key s).result) (getProperty target key s).state
  | setProperty (target : Handle) (key : String) (value : Value) (s : σ) : Dealing s
      ((setProperty target key value s).events.map .notice) (setProperty target key value s).state
  | root (handle : Handle) (s : σ) : Dealing s
      ((root handle s).events.map .notice ++ Exchange.ofRooting handle (root handle s).result)
      (root handle s).state
  | unroot (handle : Handle) (s : σ) : Dealing s
      ((unroot handle s).events.map .notice ++ [.waived (.root handle)]) (unroot handle s).state
  | release (handle : Handle) (s : σ) : Dealing s
      ((release handle s).events.map .notice ++ [.waived (.handle handle)])
      (release handle s).state
  | attachChild (owner child : Handle) (s : σ) : Dealing s
      ((attachChild owner child s).events.map .notice) (attachChild owner child s).state
  | detachChild (owner child : Handle) (s : σ) : Dealing s
      ((detachChild owner child s).events.map .notice) (detachChild owner child s).state
  | setPrivateData (handle : Handle) (payload : Payload) (s : σ) : Dealing s
      ((setPrivateData handle payload s).events.map .notice) (setPrivateData handle payload s).state
  | installClass (spec : ClassSpec) (s : σ) : Dealing s
      ((installClass spec s).events.map .notice) (installClass spec s).state
  | shutdown (s : σ) : Dealing s ((shutdown s).events.map .notice) (shutdown s).state

/-- Native code makes requests, one after the other. -/
inductive Dealings : σ → List Exchange → σ → Prop
  | refl (s : σ) : Dealings s [] s
  | tail {s s' s'' : σ} {exchanges more : List Exchange} (h : Dealings s exchanges s')
    (hlast : Dealing s' more s'') : Dealings s (exchanges ++ more) s''

theorem Dealings.single {s s' : σ} {exchanges : List Exchange} (h : Dealing s exchanges s') :
    Dealings s exchanges s' :=
  .tail (.refl s) h

theorem Dealings.trans {s s' s'' : σ} {exchanges more : List Exchange}
    (first : Dealings s exchanges s') (second : Dealings s' more s'') :
    Dealings s (exchanges ++ more) s'' := by
  induction second with
  | refl => rwa [List.append_nil]
  | tail _ hlast ih => exact List.append_assoc exchanges _ _ ▸ ih.tail hlast

end Backend

end ScriptBridge
