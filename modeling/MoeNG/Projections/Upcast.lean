import MoeNG.Lib.MapWrites
import MoeNG.Projections.Fold

/-!
# Stored-event schema dispatch (`packages/store/src/projections/projection-upcast.ts`)

Versions are opaque: a stored event is led from the version it was recorded
with to the current one through the registered hops, one handler at a time.
-/

namespace MoeNG.Projections
open MoeNG.Kernel MoeNG.Lib

/-! ### Definitions (`projection-upcast.ts:13-55`) -/

structure UpcastPatch where
  metadata : List Byte
  payload : List Byte
  deriving DecidableEq

/-- What the checks of an output read of a returned value: a symbol key is `none`, and the two
fields are given where they are byte arrays. -/
structure HandlerValue where
  isObject : Bool
  thenable : Bool
  ownKeys : List (Option JsString)
  metadata : Option (List Byte)
  payload : Option (List Byte)

inductive HandlerOutcome where
  | returned (value : HandlerValue)
  | threw

abbrev UpcastHandler := UpcastPatch → HandlerOutcome

structure UpcastRoute where
  fromVersion : JsString
  handler : UpcastHandler
  toVersion : JsString

structure UpcastDefinition where
  currentVersion : JsString
  eventType : JsString
  routes : List UpcastRoute

inductive UpcastDefinitionCode where
  | UPCAST_DUPLICATE_DISPATCH_KEY
  | UPCAST_DUPLICATE_EVENT_TYPE
  | UPCAST_ROUTE_CYCLE
  | UPCAST_ROUTE_DEAD_END
  | UPCAST_SELF_LOOP
  deriving DecidableEq

structure UpcastDefinitionError where
  code : UpcastDefinitionCode
  detail : JsString
  deriving DecidableEq

structure CompiledHop where
  handler : UpcastHandler
  toVersion : JsString

abbrev Routes := OrdMap JsString CompiledHop

structure CompiledDefinition where
  currentVersion : JsString
  routes : Routes

abbrev Compiled := OrdMap JsString CompiledDefinition

/-! ### Compilation (`projection-upcast.ts:57-93`, `projection-upcast.ts:160-173`) -/

/-- The walk from one registered version; nothing as long as it has not ended. -/
def walkToCurrent (eventType currentVersion : JsString) (routes : Routes) (start : JsString) :
    ℕ → List JsString → JsString → Option (Except UpcastDefinitionError Unit)
  | 0, _, _ => none
  | fuel + 1, visited, version =>
    if version = currentVersion then some (.ok ())
    else match routes.get version with
      | none =>
        some (.error ⟨.UPCAST_ROUTE_DEAD_END, eventType ++ lit " from " ++ start ++ lit " stops at " ++ version⟩)
      | some hop =>
        if hop.toVersion ∈ visited then
          some (.error ⟨.UPCAST_ROUTE_CYCLE, eventType ++ lit " from " ++ start ++ lit " revisits " ++ hop.toVersion⟩)
        else walkToCurrent eventType currentVersion routes start fuel (visited ++ [hop.toVersion]) hop.toVersion

-- a walk leaves a version once, so it has ended by then
def walkRegistered (eventType currentVersion : JsString) (routes : Routes)
    (start : JsString) : Except UpcastDefinitionError Unit :=
  (walkToCurrent eventType currentVersion routes start (routes.entries.length + 1) [start] start).getD (.ok ())

def assertReachesCurrent (eventType currentVersion : JsString) (routes : Routes) : Except UpcastDefinitionError Unit :=
  routes.keys.forM (walkRegistered eventType currentVersion routes)

def registerRoute (eventType : JsString) (routes : Routes) (route : UpcastRoute) : Except UpcastDefinitionError Routes :=
  if route.fromVersion = route.toVersion then
    .error ⟨.UPCAST_SELF_LOOP, eventType ++ lit " routes " ++ route.fromVersion ++ lit " to itself"⟩
  else if routes.has route.fromVersion then
    .error ⟨.UPCAST_DUPLICATE_DISPATCH_KEY, eventType ++ lit " repeats " ++ route.fromVersion⟩
  else .ok (routes.set route.fromVersion ⟨route.handler, route.toVersion⟩)

def compileDefinition (definition : UpcastDefinition) : Except UpcastDefinitionError CompiledDefinition := do
  let routes ← definition.routes.foldlM (registerRoute definition.eventType) .empty
  assertReachesCurrent definition.eventType definition.currentVersion routes
  .ok ⟨definition.currentVersion, routes⟩

def registerDefinition (compiled : Compiled) (definition : UpcastDefinition) : Except UpcastDefinitionError Compiled :=
  if compiled.has definition.eventType then
    .error ⟨.UPCAST_DUPLICATE_EVENT_TYPE, definition.eventType ++ lit " is defined twice"⟩
  else do
    let entry ← compileDefinition definition
    .ok (compiled.set definition.eventType entry)

def compileStoredEventUpcaster (definitions : List UpcastDefinition) : Except UpcastDefinitionError Compiled :=
  definitions.foldlM registerDefinition .empty

/-! ### Dispatch (`projection-upcast.ts:95-158`) -/

def checkOutput (value : HandlerValue) : Except UpcastFailureCode UpcastPatch :=
  if value.thenable then .error .UPCAST_HANDLER_FAILED
  else if !value.isObject then .error .UPCAST_OUTPUT_INVALID
  else if value.ownKeys.length ≠ 2 || some (lit "metadata") ∉ value.ownKeys || some (lit "payload") ∉ value.ownKeys then
    .error .UPCAST_OUTPUT_INVALID
  else match value.metadata, value.payload with
    | some metadata, some payload => .ok ⟨metadata, payload⟩
    | _, _ => .error .UPCAST_OUTPUT_INVALID

def runHandler (handler : UpcastHandler) (patch : UpcastPatch) : Except UpcastFailureCode UpcastPatch :=
  match handler patch with
  | .threw => .error .UPCAST_HANDLER_FAILED
  | .returned value => checkOutput value

def refuseUpcast (code : UpcastFailureCode) (event : StoredEvent) (fromVersion : JsString) (currentVersion : Option JsString) :
    UpcastOutcome :=
  .refused ⟨code, currentVersion, event.eventId, event.eventType, fromVersion⟩

def StoredEvent.upcastTo (event : StoredEvent) (currentVersion : JsString) (patch : UpcastPatch) : StoredEvent :=
  { event with domainSchemaVersion := currentVersion, metadata := patch.metadata, payload := patch.payload }

/-- The loop of `dispatch`; nothing as long as it has not ended. -/
def dispatchFrom (definition : CompiledDefinition) (event : StoredEvent) : ℕ → JsString → UpcastPatch → Option UpcastOutcome
  | 0, _, _ => none
  | fuel + 1, version, patch =>
    if version = definition.currentVersion then some (.upcast (event.upcastTo definition.currentVersion patch))
    else match definition.routes.get version with
      | none => some (refuseUpcast .SCHEMA_VERSION_UNSUPPORTED event version (some definition.currentVersion))
      | some hop =>
        match runHandler hop.handler patch with
        | .error code => some (refuseUpcast code event version (some definition.currentVersion))
        | .ok next => dispatchFrom definition event fuel hop.toVersion next

def dispatch (compiled : Compiled) (event : StoredEvent) : Option UpcastOutcome :=
  match compiled.get event.eventType with
  | none => some (refuseUpcast .SCHEMA_VERSION_UNSUPPORTED event event.domainSchemaVersion none)
  | some definition =>
    dispatchFrom definition event (definition.routes.entries.length + 1) event.domainSchemaVersion ⟨event.metadata, event.payload⟩

-- `upcast` of the compiled set, whose loop always ends
def storedEventUpcaster (compiled : Compiled) : StoredEventUpcaster := fun event => (dispatch compiled event).getD .threw

end MoeNG.Projections

/-!
## Dispatch follows the one chain (`projection-upcast.ts:57-173`)

A version is left by one hop at most, so the hops from a version to the current
one are determined, and a walk along them comes to no version twice.
-/

namespace MoeNG.Projections
open MoeNG.Kernel MoeNG.Lib

/-! ### Chains -/

/-- The hops from a version to the first arrival at the current one. -/
def Chain (definition : UpcastDefinition) : JsString → List UpcastRoute → Prop
  | version, [] => version = definition.currentVersion
  | version, route :: rest =>
    version ≠ definition.currentVersion ∧ route ∈ definition.routes ∧ route.fromVersion = version
      ∧ Chain definition route.toVersion rest

variable {definition : UpcastDefinition}

theorem Chain.unique (hdistinct : (definition.routes.map UpcastRoute.fromVersion).Nodup) {version : JsString}
    {hops hops' : List UpcastRoute} (h : Chain definition version hops) (h' : Chain definition version hops') : hops = hops' := by
  induction hops generalizing version hops' with
  | nil =>
    cases hops' with
    | nil => rfl
    | cons route' rest' => exact absurd h h'.1
  | cons route rest ih =>
    cases hops' with
    | nil => exact absurd h' h.1
    | cons route' rest' =>
      obtain ⟨-, hmem, hfrom, hrest⟩ := h
      obtain ⟨-, hmem', hfrom', hrest'⟩ := h'
      obtain rfl := List.inj_on_of_nodup_map hdistinct hmem hmem' (hfrom.trans hfrom'.symm)
      rw [ih hrest hrest']

theorem Chain.mem {version : JsString} {hops : List UpcastRoute} (h : Chain definition version hops) :
    ∀ route ∈ hops, route ∈ definition.routes := by
  induction hops generalizing version with
  | nil => nofun
  | cons route rest ih =>
    obtain ⟨-, hmem, -, hrest⟩ := h
    exact List.forall_mem_cons.mpr ⟨hmem, ih hrest⟩

theorem Chain.later {version : JsString} {front rest : List UpcastRoute} {route : UpcastRoute}
    (h : Chain definition version (front ++ route :: rest)) : Chain definition route.fromVersion (route :: rest) := by
  induction front generalizing version with
  | nil =>
    obtain ⟨hcurrent, hmem, hfrom, hrest⟩ := h
    exact ⟨hfrom.symm ▸ hcurrent, hmem, rfl, hrest⟩
  | cons first front ih =>
    obtain ⟨-, -, -, hrest⟩ := h
    exact ih hrest

/-- No version is left twice. -/
theorem Chain.nodup (hdistinct : (definition.routes.map UpcastRoute.fromVersion).Nodup) {version : JsString}
    {hops : List UpcastRoute} (h : Chain definition version hops) : (hops.map UpcastRoute.fromVersion).Nodup := by
  induction hops generalizing version with
  | nil => exact List.nodup_nil
  | cons route rest ih =>
    have hwhole := h
    obtain ⟨-, -, hfrom, hrest⟩ := h
    refine List.nodup_cons.mpr ⟨fun hin => ?_, ih hrest⟩
    obtain ⟨again, hagain, heq⟩ := List.mem_map.mp hin
    obtain ⟨front, back, rfl⟩ := List.append_of_mem hagain
    have hback := hrest.later
    rw [heq, hfrom] at hback
    have hlength := congrArg List.length (hwhole.unique hdistinct hback)
    simp only [List.length_cons, List.length_append] at hlength
    omega

/-! ### Compiled definitions -/

/-- The entry of a registered route. -/
def Hops (route : UpcastRoute) (hop : CompiledHop) : Prop := hop = ⟨route.handler, route.toVersion⟩

structure Registers (definition : UpcastDefinition) (entry : CompiledDefinition) : Prop where
  current : entry.currentVersion = definition.currentVersion
  routes : Filled UpcastRoute.fromVersion Hops definition.routes entry.routes
  chained : ∀ route ∈ definition.routes, ∃ hops, Chain definition route.fromVersion hops

theorem registerRoute_ok (eventType : JsString) (routes : Routes) (route : UpcastRoute) (routes' : Routes)
    (h : registerRoute eventType routes route = .ok routes') :
    routes.has route.fromVersion = false ∧ ∃ hop, Hops route hop ∧ routes' = routes.set route.fromVersion hop := by
  unfold registerRoute at h
  split at h
  · cases h
  split at h
  · cases h
  · rename_i hfresh
    exact ⟨Bool.eq_false_iff.mpr hfresh, _, rfl, (Except.ok.inj h).symm⟩

theorem forM_ok {ε A : Type} (f : A → Except ε Unit) (l : List A) (h : l.forM f = .ok ()) : ∀ x ∈ l, f x = .ok () := by
  induction l with
  | nil => nofun
  | cons x rest ih =>
    obtain ⟨⟨⟩, hx, hrest⟩ := except_bind_ok (f x) (fun _ => rest.forM f) () h
    exact List.forall_mem_cons.mpr ⟨hx, ih hrest⟩

/-- A walk that reaches the current version has gone along a chain. -/
theorem walkToCurrent_chain {routes : Routes} (hroutes : Filled UpcastRoute.fromVersion Hops definition.routes routes)
    (eventType start : JsString) (fuel : ℕ) (visited : List JsString) (version : JsString)
    (h : walkToCurrent eventType definition.currentVersion routes start fuel visited version = some (.ok ())) :
    ∃ hops, Chain definition version hops := by
  induction fuel generalizing visited version with
  | zero => cases h
  | succ fuel ih =>
    rw [walkToCurrent] at h
    split at h
    · rename_i hcurrent
      exact ⟨[], hcurrent⟩
    rename_i hcurrent
    split at h
    · cases Option.some.inj h
    rename_i hop hget
    split at h
    · cases Option.some.inj h
    · obtain ⟨route, hmem, hfrom, rfl⟩ := hroutes.found version hop hget
      obtain ⟨hops, hchain⟩ := ih _ _ h
      exact ⟨route :: hops, hcurrent, hmem, hfrom, hchain⟩

/-- Every version is left once, so the walk ends. -/
theorem walkToCurrent_ends (eventType currentVersion : JsString) (routes : Routes) (start : JsString) (fuel : ℕ)
    (front : List JsString) (version : JsString) (hnodup : (front ++ [version]).Nodup) (hfront : front ⊆ routes.keys)
    (hfuel : routes.entries.length < fuel + front.length) :
    walkToCurrent eventType currentVersion routes start fuel (front ++ [version]) version ≠ none := by
  induction fuel generalizing front version with
  | zero =>
    have hle := (List.subperm_of_subset (List.nodup_append.mp hnodup).1 hfront).length_le
    rw [OrdMap.keys, List.length_map] at hle
    omega
  | succ fuel ih =>
    rw [walkToCurrent]
    split
    · exact Option.some_ne_none _
    split
    · exact Option.some_ne_none _
    rename_i hop hget
    split
    · exact Option.some_ne_none _
    · rename_i hnew
      refine ih (front ++ [version]) hop.toVersion ?_ ?_ ?_
      · rw [List.nodup_append]
        refine ⟨hnodup, List.nodup_singleton _, fun a ha b hb heq => hnew ?_⟩
        rw [← List.mem_singleton.mp hb, ← heq]
        exact ha
      · have hkey : version ∈ routes.keys := (OrdMap.has_iff routes version).mp (by rw [OrdMap.has, hget]; rfl)
        intro a ha
        rcases List.mem_append.mp ha with ha | ha
        · exact hfront ha
        · rwa [List.mem_singleton.mp ha]
      · rw [List.length_append, List.length_singleton]
        omega

theorem walkRegistered_chain {routes : Routes} (hroutes : Filled UpcastRoute.fromVersion Hops definition.routes routes)
    (eventType start : JsString) (h : walkRegistered eventType definition.currentVersion routes start = .ok ()) :
    ∃ hops, Chain definition start hops := by
  unfold walkRegistered at h
  have hends := walkToCurrent_ends eventType definition.currentVersion routes start (routes.entries.length + 1) [] start
    (List.nodup_singleton _) (List.nil_subset _) (Nat.lt_succ_self _)
  rw [List.nil_append] at hends
  cases hwalk : walkToCurrent eventType definition.currentVersion routes start (routes.entries.length + 1) [start] start with
  | none => exact absurd hwalk hends
  | some result =>
    rw [hwalk] at h
    obtain rfl : result = .ok () := h
    exact walkToCurrent_chain hroutes eventType start _ _ _ hwalk

theorem compileDefinition_registers {entry : CompiledDefinition} (h : compileDefinition definition = .ok entry) :
    Registers definition entry := by
  unfold compileDefinition at h
  obtain ⟨routes, hroutes, h⟩ := except_bind_ok _ _ _ h
  obtain ⟨⟨⟩, hreaches, h⟩ := except_bind_ok _ _ _ h
  obtain rfl := Except.ok.inj h
  have hfilled : Filled UpcastRoute.fromVersion Hops definition.routes routes := by
    have hfold := Filled.foldlM (registerRoute_ok definition.eventType) definition.routes Filled.empty hroutes
    rwa [List.nil_append] at hfold
  refine ⟨rfl, hfilled, fun route hroute => ?_⟩
  obtain ⟨hop, hget, -⟩ := hfilled.all route hroute
  have hkey : route.fromVersion ∈ routes.keys := (OrdMap.has_iff routes _).mp (by rw [OrdMap.has, hget]; rfl)
  exact walkRegistered_chain hfilled _ _ (forM_ok _ _ hreaches _ hkey)

theorem registerDefinition_ok (compiled : Compiled) (definition : UpcastDefinition) (compiled' : Compiled)
    (h : registerDefinition compiled definition = .ok compiled') :
    compiled.has definition.eventType = false
      ∧ ∃ entry, Registers definition entry ∧ compiled' = compiled.set definition.eventType entry := by
  unfold registerDefinition at h
  split at h
  · cases h
  · rename_i hfresh
    obtain ⟨entry, hentry, h⟩ := except_bind_ok _ _ _ h
    exact ⟨Bool.eq_false_iff.mpr hfresh, entry, compileDefinition_registers hentry, (Except.ok.inj h).symm⟩

theorem compile_filled {definitions : List UpcastDefinition} {compiled : Compiled}
    (h : compileStoredEventUpcaster definitions = .ok compiled) :
    Filled UpcastDefinition.eventType Registers definitions compiled := by
  have hfold := Filled.foldlM registerDefinition_ok definitions Filled.empty h
  rwa [List.nil_append] at hfold

/-! ### Dispatch -/

/-- The handlers of some hops in their order, up to the first that fails, with the version it was met at. -/
def runHops : List UpcastRoute → UpcastPatch → Except (UpcastFailureCode × JsString) UpcastPatch
  | [], patch => .ok patch
  | route :: rest, patch =>
    match runHandler route.handler patch with
    | .error code => .error (code, route.fromVersion)
    | .ok next => runHops rest next

def settled (event : StoredEvent) (currentVersion : JsString) : Except (UpcastFailureCode × JsString) UpcastPatch → UpcastOutcome
  | .ok patch =>
    .upcast { event with domainSchemaVersion := currentVersion, metadata := patch.metadata, payload := patch.payload }
  | .error (code, version) => .refused ⟨code, some currentVersion, event.eventId, event.eventType, version⟩

theorem runHandler_code (handler : UpcastHandler) (patch : UpcastPatch) (code : UpcastFailureCode)
    (h : runHandler handler patch = .error code) : code ≠ .SCHEMA_VERSION_UNSUPPORTED := by
  unfold runHandler at h
  split at h
  · rw [← Except.error.inj h]
    decide
  · unfold checkOutput at h
    split at h
    · rw [← Except.error.inj h]
      decide
    split at h
    · rw [← Except.error.inj h]
      decide
    split at h
    · rw [← Except.error.inj h]
      decide
    split at h
    · cases h
    · rw [← Except.error.inj h]
      decide

theorem runHops_code (hops : List UpcastRoute) (patch : UpcastPatch) (code : UpcastFailureCode) (version : JsString)
    (h : runHops hops patch = .error (code, version)) : code ≠ .SCHEMA_VERSION_UNSUPPORTED := by
  induction hops generalizing patch with
  | nil => cases h
  | cons route rest ih =>
    unfold runHops at h
    split at h
    · rename_i hrun
      obtain ⟨rfl, -⟩ := Prod.mk.inj (Except.error.inj h)
      exact runHandler_code _ _ _ hrun
    · exact ih _ h

/-- The loop runs the handlers of the chain. -/
theorem dispatchFrom_chain {entry : CompiledDefinition} (hentry : Registers definition entry) (event : StoredEvent)
    (hops : List UpcastRoute) (fuel : ℕ) (version : JsString) (patch : UpcastPatch) (h : Chain definition version hops)
    (hfuel : hops.length < fuel) :
    dispatchFrom entry event fuel version patch = some (settled event definition.currentVersion (runHops hops patch)) := by
  induction hops generalizing fuel version patch with
  | nil =>
    obtain ⟨fuel, rfl⟩ : ∃ n, fuel = n + 1 := ⟨fuel - 1, by rw [List.length_nil] at hfuel; omega⟩
    rw [dispatchFrom, hentry.current, if_pos (show version = _ from h)]
    rfl
  | cons route rest ih =>
    obtain ⟨hcurrent, hmem, rfl, hrest⟩ := h
    rw [List.length_cons] at hfuel
    obtain ⟨fuel, rfl⟩ : ∃ n, fuel = n + 1 := ⟨fuel - 1, by omega⟩
    obtain ⟨hop, hget, rfl⟩ := hentry.routes.all route hmem
    rw [dispatchFrom, hentry.current, if_neg hcurrent, hget, runHops]
    dsimp only
    cases runHandler route.handler patch with
    | error code => rfl
    | ok next => exact ih fuel _ next hrest (by omega)

theorem Registers.length_le {entry : CompiledDefinition} (hentry : Registers definition entry) {version : JsString}
    {hops : List UpcastRoute} (h : Chain definition version hops) : hops.length ≤ entry.routes.entries.length := by
  have hsub : hops.map UpcastRoute.fromVersion ⊆ entry.routes.keys := by
    intro v hv
    obtain ⟨route, hroute, rfl⟩ := List.mem_map.mp hv
    obtain ⟨hop, hget, -⟩ := hentry.routes.all route (h.mem route hroute)
    exact (OrdMap.has_iff _ _).mp (by rw [OrdMap.has, hget]; rfl)
  have hle := (List.subperm_of_subset (h.nodup hentry.routes.distinct) hsub).length_le
  rwa [List.length_map, OrdMap.keys, List.length_map] at hle

theorem dispatch_chain {compiled : Compiled} {entry : CompiledDefinition} {event : StoredEvent} {hops : List UpcastRoute}
    (hget : compiled.get event.eventType = some entry) (hentry : Registers definition entry)
    (h : Chain definition event.domainSchemaVersion hops) :
    dispatch compiled event
      = some (settled event definition.currentVersion (runHops hops ⟨event.metadata, event.payload⟩)) := by
  rw [dispatch, hget]
  exact dispatchFrom_chain hentry event hops _ _ _ h (Nat.lt_succ_of_le (hentry.length_le h))

theorem dispatch_unregistered {compiled : Compiled} {entry : CompiledDefinition} {event : StoredEvent}
    (hget : compiled.get event.eventType = some entry) (hentry : Registers definition entry)
    (hcurrent : event.domainSchemaVersion ≠ definition.currentVersion)
    (hregistered : ∀ route ∈ definition.routes, route.fromVersion ≠ event.domainSchemaVersion) :
    dispatch compiled event = some (refuseUpcast .SCHEMA_VERSION_UNSUPPORTED event event.domainSchemaVersion
      (some definition.currentVersion)) := by
  have hnone : entry.routes.get event.domainSchemaVersion = none := by
    cases hhop : entry.routes.get event.domainSchemaVersion with
    | none => rfl
    | some hop =>
      obtain ⟨route, hmem, hfrom, -⟩ := hentry.routes.found _ hop hhop
      exact absurd hfrom (hregistered route hmem)
  rw [dispatch, hget]
  dsimp only
  rw [dispatchFrom, hentry.current, if_neg hcurrent, hnone]

/-! ### The law of dispatch -/

def Unsupported (outcome : UpcastOutcome) : Prop := ∃ failure, outcome = .refused failure
    ∧ failure.code = .SCHEMA_VERSION_UNSUPPORTED

theorem settled_supported (event : StoredEvent) (currentVersion : JsString) (hops : List UpcastRoute) (patch : UpcastPatch) :
    ¬ Unsupported (settled event currentVersion (runHops hops patch)) := by
  rintro ⟨failure, houtcome, hcode⟩
  cases hrun : runHops hops patch with
  | ok next =>
    rw [hrun] at houtcome
    cases houtcome
  | error refusal =>
    obtain ⟨code, version⟩ := refusal
    rw [hrun] at houtcome
    obtain rfl := UpcastOutcome.refused.inj houtcome
    exact runHops_code hops patch code version hrun hcode

/-- What an accepted set of definitions makes of one stored event. -/
structure UpcastLaw (definitions : List UpcastDefinition) (compiled : Compiled) (event : StoredEvent) : Prop where
  terminates : dispatch compiled event = some (storedEventUpcaster compiled event)
  current : ∀ definition ∈ definitions, definition.eventType = event.eventType →
    event.domainSchemaVersion = definition.currentVersion → dispatch compiled event = some (.upcast event)
  registered : ∀ definition ∈ definitions, definition.eventType = event.eventType →
    (∃ route ∈ definition.routes, route.fromVersion = event.domainSchemaVersion) →
      ∃ hops, Chain definition event.domainSchemaVersion hops
        ∧ (∀ hops', Chain definition event.domainSchemaVersion hops' → hops' = hops)
        ∧ (hops.map UpcastRoute.fromVersion).Nodup
        ∧ dispatch compiled event
          = some (settled event definition.currentVersion (runHops hops ⟨event.metadata, event.payload⟩))
  unsupported : (∃ outcome, dispatch compiled event = some outcome ∧ Unsupported outcome)
    ↔ ∀ definition ∈ definitions, definition.eventType = event.eventType →
      event.domainSchemaVersion ≠ definition.currentVersion
        ∧ ∀ route ∈ definition.routes, route.fromVersion ≠ event.domainSchemaVersion

/-- Where a version of a defined event type leads. -/
theorem dispatch_cases {definitions : List UpcastDefinition} {compiled : Compiled}
    (h : Filled UpcastDefinition.eventType Registers definitions compiled) (event : StoredEvent) {definition : UpcastDefinition}
    (hmem : definition ∈ definitions) (htype : definition.eventType = event.eventType) :
    (event.domainSchemaVersion ≠ definition.currentVersion
        ∧ (∀ route ∈ definition.routes, route.fromVersion ≠ event.domainSchemaVersion)
        ∧ dispatch compiled event = some (refuseUpcast .SCHEMA_VERSION_UNSUPPORTED event event.domainSchemaVersion
          (some definition.currentVersion)))
      ∨ ∃ hops, Chain definition event.domainSchemaVersion hops
        ∧ (∀ hops', Chain definition event.domainSchemaVersion hops' → hops' = hops)
        ∧ (hops.map UpcastRoute.fromVersion).Nodup
        ∧ dispatch compiled event
          = some (settled event definition.currentVersion (runHops hops ⟨event.metadata, event.payload⟩)) := by
  obtain ⟨entry, hget, hentry⟩ := h.all definition hmem
  rw [htype] at hget
  have hchain : ∀ hops, Chain definition event.domainSchemaVersion hops →
      ∃ hops, Chain definition event.domainSchemaVersion hops
        ∧ (∀ hops', Chain definition event.domainSchemaVersion hops' → hops' = hops)
        ∧ (hops.map UpcastRoute.fromVersion).Nodup
        ∧ dispatch compiled event
          = some (settled event definition.currentVersion (runHops hops ⟨event.metadata, event.payload⟩)) :=
    fun hops hhops => ⟨hops, hhops, fun hops' hhops' => hhops'.unique hentry.routes.distinct hhops,
      hhops.nodup hentry.routes.distinct, dispatch_chain hget hentry hhops⟩
  by_cases hcurrent : event.domainSchemaVersion = definition.currentVersion
  · exact Or.inr (hchain [] hcurrent)
  by_cases hregistered : ∃ route ∈ definition.routes, route.fromVersion = event.domainSchemaVersion
  · obtain ⟨route, hroute, hfrom⟩ := hregistered
    obtain ⟨hops, hhops⟩ := hentry.chained route hroute
    exact Or.inr (hchain hops (hfrom ▸ hhops))
  · have hnone : ∀ route ∈ definition.routes, route.fromVersion ≠ event.domainSchemaVersion := fun route hroute hfrom =>
      hregistered ⟨route, hroute, hfrom⟩
    exact Or.inl ⟨hcurrent, hnone, dispatch_unregistered hget hentry hcurrent hnone⟩

theorem dispatch_undefined {definitions : List UpcastDefinition} {compiled : Compiled}
    (h : Filled UpcastDefinition.eventType Registers definitions compiled) (event : StoredEvent)
    (hnone : ∀ definition ∈ definitions, definition.eventType ≠ event.eventType) :
    dispatch compiled event = some (refuseUpcast .SCHEMA_VERSION_UNSUPPORTED event event.domainSchemaVersion none) := by
  cases hget : compiled.get event.eventType with
  | none => rw [dispatch, hget]
  | some entry =>
    obtain ⟨definition, hmem, htype, -⟩ := h.found _ entry hget
    exact absurd htype (hnone definition hmem)

theorem upcast_law (definitions : List UpcastDefinition) (compiled : Compiled)
    (h : compileStoredEventUpcaster definitions = .ok compiled) (event : StoredEvent) : UpcastLaw definitions compiled event := by
  have hfilled := compile_filled h
  refine ⟨?_, fun definition hmem htype hcurrent => ?_, fun definition hmem htype hregistered => ?_, ?_, fun hnone => ?_⟩
  · suffices hends : ∃ outcome, dispatch compiled event = some outcome by
      obtain ⟨outcome, hrun⟩ := hends
      rw [storedEventUpcaster, hrun, Option.getD_some]
    by_cases hdefined : ∃ definition ∈ definitions, definition.eventType = event.eventType
    · obtain ⟨definition, hmem, htype⟩ := hdefined
      rcases dispatch_cases hfilled event hmem htype with ⟨-, -, hrun⟩ | ⟨_, -, -, -, hrun⟩ <;> exact ⟨_, hrun⟩
    · exact ⟨_, dispatch_undefined hfilled event fun definition hmem htype => hdefined ⟨definition, hmem, htype⟩⟩
  · rcases dispatch_cases hfilled event hmem htype with ⟨hnot, -, -⟩ | ⟨hops, -, hunique, -, hrun⟩
    · exact absurd hcurrent hnot
    · rw [← hunique [] hcurrent] at hrun
      rw [hrun, runHops, settled, ← hcurrent]
  · rcases dispatch_cases hfilled event hmem htype with ⟨-, hnot, -⟩ | hchain
    · obtain ⟨route, hroute, hfrom⟩ := hregistered
      exact absurd hfrom (hnot route hroute)
    · exact hchain
  · rintro ⟨outcome, houtcome, hunsupported⟩ definition hmem htype
    rcases dispatch_cases hfilled event hmem htype with ⟨hcurrent, hnot, -⟩ | ⟨hops, -, -, -, hrun⟩
    · exact ⟨hcurrent, hnot⟩
    · obtain rfl := Option.some.inj (houtcome.symm.trans hrun)
      exact absurd hunsupported (settled_supported _ _ _ _)
  · by_cases hdefined : ∃ definition ∈ definitions, definition.eventType = event.eventType
    · obtain ⟨definition, hmem, htype⟩ := hdefined
      obtain ⟨hcurrent, hnot⟩ := hnone definition hmem htype
      rcases dispatch_cases hfilled event hmem htype with ⟨-, -, hrun⟩ | ⟨hops, hchain, -, -, -⟩
      · exact ⟨_, hrun, _, rfl, rfl⟩
      · cases hops with
        | nil => exact absurd hchain hcurrent
        | cons route rest => exact absurd hchain.2.2.1 (hnot route hchain.2.1)
    · exact ⟨_, dispatch_undefined hfilled event fun definition hmem htype => hdefined ⟨definition, hmem, htype⟩, _, rfl, rfl⟩

def renamed : UpcastHandler := fun patch =>
  .returned ⟨true, false, [some (lit "metadata"), some (lit "payload")], some patch.metadata, some (1 :: patch.payload)⟩

def goalDefinition : UpcastDefinition :=
  ⟨lit "3", lit "goal.opened", [⟨lit "1", renamed, lit "2"⟩, ⟨lit "2", renamed, lit "3"⟩]⟩

def goalEvent : StoredEvent :=
  ⟨lit "goal-1", 1, lit "c-1", lit "t", none, lit "1", lit "e-1", lit "goal.opened", 1, [], [7], opaquePayloadCodecVersion,
    eventRecordVersion, lit "r"⟩

theorem upcast_law_goal : ∃ compiled, compileStoredEventUpcaster [goalDefinition] = .ok compiled
    ∧ UpcastLaw [goalDefinition] compiled goalEvent
    ∧ (storedEventUpcaster compiled goalEvent
      = .upcast { goalEvent with domainSchemaVersion := lit "3", payload := [1, 1, 7] }) :=
  ⟨_, rfl, upcast_law [goalDefinition] _ rfl goalEvent, rfl⟩

end MoeNG.Projections
