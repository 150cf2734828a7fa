import MoeNG.Authority.Resource

/-!
# Runs of adapter reports over one acquisition set

The rows of an accepted reservation, any sequence of confirmations, failures
and successor grants with arbitrary arguments.
-/

namespace MoeNG.Authority
open MoeNG.Kernel MoeNG.Lib

/-! ### Rows read back -/

structure ResourceRow.WellFormed (r : ResourceRow) : Prop where
  resourceId : isRef r.resourceId = true
  capacityUnits : isCount r.capacityUnits = true
  epoch : isCount r.epoch = true
  effectIntentRef : isRef r.effectIntentRef = true

structure RowsWellFormed (rows : List ResourceRow) : Prop where
  nonempty : rows.length ≠ 0
  bounded : rows.length ≤ maxAuthorityItems
  each : ∀ row ∈ rows, row.WellFormed

theorem oneOf_acquisitionState (s : AcquisitionState) :
    oneOf AcquisitionState.text acquisitionStates (.string (lit s.text)) = some s := by
  cases s <;> decide

theorem parseRow_toValue (r : ResourceRow) (h : r.WellFormed) : parseRow r.toValue = some r := by
  have hread : exactRecord r.toValue rowKeys = some _ :=
    exactRecord_recordOf _ (show (rowKeys.map lit).Nodup by decide)
  unfold parseRow
  rw [hread]
  simp only [Fields.field_cons, String.reduceEq, if_true, if_false, Option.bind_eq_bind, Option.bind_some,
    refOf_string _ h.resourceId, countOf_integer _ h.capacityUnits,
    countOf_integer _ h.epoch, oneOf_acquisitionState, refOf_string _ h.effectIntentRef, boolOf_bool, Option.pure_def]

theorem parseRows_rowsValue (rows : List ResourceRow) (h : RowsWellFormed rows) :
    parseRows (rowsValue rows) = some rows := by
  unfold parseRows rowsValue readList
  have hbounded : ¬ (rows.map ResourceRow.toValue).length > maxAuthorityItems := by
    rw [List.length_map]
    exact not_lt.mpr h.bounded
  have hnonempty : (rows.map ResourceRow.toValue).length ≠ 0 := by
    rw [List.length_map]
    exact h.nonempty
  simp only [if_neg hbounded, Option.bind_eq_bind, Option.bind_some]
  rw [if_neg hnonempty, List.mapM_map]
  exact mapM_eq_some _ rows fun row hrow => parseRow_toValue row (h.each row hrow)

/-- Only the states of the rows change. -/
theorem RowsWellFormed.restate {rows : List ResourceRow} (h : RowsWellFormed rows)
    (state : ResourceRow → AcquisitionState) : RowsWellFormed (rows.map fun row => { row with state := state row }) := by
  refine ⟨by rw [List.length_map]; exact h.nonempty, by rw [List.length_map]; exact h.bounded, fun row hrow => ?_⟩
  obtain ⟨r, hr, rfl⟩ := List.mem_map.mp hrow
  have hw := h.each r hr
  exact ⟨hw.resourceId, hw.capacityUnits, hw.epoch, hw.effectIntentRef⟩

/-! ### An accepted reservation -/

def AcquisitionState.acquiring : AcquisitionState → Bool
  | PENDING_ACQUIRE => true
  | ACTIVE => true
  | _ => false

/-- Either every row still holds or awaits its capacity, or none does. -/
def Unmixed (rows : List ResourceRow) : Prop :=
  (∀ row ∈ rows, row.state.acquiring = true) ∨ ∀ row ∈ rows, row.state.acquiring = false

theorem parseDeclared_some (v : Value) (d : DeclaredResource) (h : parseDeclared v = some d) :
    isRef d.resourceId = true ∧ isCount d.capacityUnits = true := by
  simp only [parseDeclared, Option.bind_eq_bind, Option.pure_def, Option.bind_eq_some_iff, Option.some.injEq] at h
  obtain ⟨_, _, id, h1, units, h2, _, _, _, _, rfl⟩ := h
  exact ⟨isRef_of_refOf _ _ h1, isCount_of_countOf _ _ h2⟩

structure RequestWellFormed (parsed : ReserveAllRequest) : Prop where
  epoch : isCount parsed.epoch = true
  nonempty : parsed.declaredResources.length ≠ 0
  bounded : parsed.declaredResources.length ≤ maxAuthorityItems
  each : ∀ d ∈ parsed.declaredResources, isRef d.resourceId = true ∧ isCount d.capacityUnits = true

theorem parseReserveRequest_some (v : Value) (parsed : ReserveAllRequest) (h : parseReserveRequest v = some parsed) :
    RequestWellFormed parsed := by
  simp only [parseReserveRequest, Option.bind_eq_bind, Option.pure_def, Option.bind_eq_some_iff] at h
  obtain ⟨fields, _, id, _, epoch, hepoch, _, _, _, _, _, _, h⟩ := h
  split at h
  swap
  · cases h
  simp only [Option.bind_eq_some_iff] at h
  obtain ⟨items, hitems, h⟩ := h
  split at h
  · cases h
  rename_i hnonempty
  simp only [Option.bind_eq_some_iff] at h
  obtain ⟨resources, hresources, h⟩ := h
  split at h
  · cases h
  obtain rfl := Option.some.inj h
  have hlength : resources.length = items.length := length_of_mapM_some _ _ _ hresources
  have hbounded : items.length ≤ maxAuthorityItems := by
    unfold readList at hitems
    split at hitems
    · split at hitems
      · cases hitems
      · rename_i hle
        obtain rfl := Option.some.inj hitems
        exact not_lt.mp hle
    · cases hitems
  refine ⟨isCount_of_countOf _ _ hepoch, ?_, ?_, fun d hd => ?_⟩
  · rw [List.length_insertionSort, hlength]
    exact hnonempty
  · rw [List.length_insertionSort, hlength]
    exact hbounded
  · obtain ⟨item, -, hitem⟩ := mem_of_mapM_some _ _ _ hresources d ((List.mem_insertionSort _).mp hd)
    exact parseDeclared_some item d hitem

theorem reserveAll_reserved (request : Value) (rows : List ResourceRow)
    (h : reserveAll request = .ok (.reserved rows)) : RowsWellFormed rows ∧ ∀ row ∈ rows, row.state.acquiring = true := by
  unfold reserveAll at h
  split at h
  · cases h
  rename_i parsed hparsed
  have hp := parseReserveRequest_some request parsed hparsed
  dsimp only at h
  split at h
  · cases h
  cases h
  refine ⟨⟨by rw [List.length_map]; exact hp.nonempty, by rw [List.length_map]; exact hp.bounded, fun row hrow => ?_⟩,
    fun row hrow => ?_⟩
  · obtain ⟨d, hd, rfl⟩ := List.mem_map.mp hrow
    obtain ⟨hid, hunits⟩ := hp.each d hd
    exact ⟨hid, hunits, hp.epoch, rfl⟩
  · obtain ⟨d, -, rfl⟩ := List.mem_map.mp hrow
    unfold reservedRow
    cases d.external <;> rfl

/-! ### One call -/

inductive AcquisitionCall where
  | adapterConfirm (resourceId epoch : Value)
  | adapterFail (resourceId epoch disposition : Value)
  | grantSuccessorCapacity (proofRef : Value)

def AcquisitionCall.apply (value : Value) : AcquisitionCall → AuthorityOutcome AcquisitionSet
  | adapterConfirm resourceId epoch => Authority.adapterConfirm value resourceId epoch
  | adapterFail resourceId epoch disposition => Authority.adapterFail value resourceId epoch disposition
  | grantSuccessorCapacity proofRef => Authority.grantSuccessorCapacity value proofRef

def acquisitionStep (value : Value) (call : AcquisitionCall) : Value :=
  match call.apply value with
  | .ok set => rowsValue set.rows
  | .error _ => value

/-- What a call may do to one row. -/
structure RowStep (call : AcquisitionCall) (row : ResourceRow) (state : AcquisitionState) : Prop where
  leavesQuarantine : row.state = .QUARANTINED → state ≠ .QUARANTINED →
    ∃ proofRef, call = .grantSuccessorCapacity proofRef ∧ (refOf proofRef).isSome = true
  releases : row.fenceable = false → row.state.acquiring = true → state = .RELEASED →
    ∃ epoch, call = .adapterFail (.string row.resourceId) epoch (.string (lit "FAILED"))

theorem RowStep.keep (call : AcquisitionCall) (row : ResourceRow) : RowStep call row row.state := by
  refine ⟨fun h hne => absurd h hne, fun _ hacquiring hreleased => ?_⟩
  rw [hreleased] at hacquiring
  cases hacquiring

/-- Everything one call can do to the rows: it rewrites their states, row by row. -/
structure RowsStep (call : AcquisitionCall) (rows rows' : List ResourceRow) (state : ResourceRow → AcquisitionState) :
    Prop where
  restated : rows' = rows.map fun row => { row with state := state row }
  each : ∀ row ∈ rows, RowStep call row (state row)
  unmixed : Unmixed rows'

theorem locate_ok (value resourceId epoch : Value) (rows : List ResourceRow) (located : ResourceRow)
    (h : locate value resourceId epoch = .ok (rows, located)) :
    parseRows value = some rows ∧ located ∈ rows ∧ resourceId = .string located.resourceId := by
  unfold locate at h
  split at h
  swap
  · cases h
  rename_i rows' id z hrows hid _
  split at h
  · cases h
  rename_i _ _ hfind
  split at h
  · cases h
  cases h
  have hrow : located.resourceId = id := by simpa using List.find?_some hfind
  refine ⟨hrows, List.mem_of_find?_eq_some hfind, ?_⟩
  unfold refOf at hid
  split at hid
  · split at hid
    · rw [hrow, Option.some.inj hid]
    · cases hid
  · cases hid

theorem adapterConfirm_step (value resourceId epoch : Value) (rows : List ResourceRow) (set : AcquisitionSet)
    (hrows : parseRows value = some rows) (hunmixed : Unmixed rows)
    (h : adapterConfirm value resourceId epoch = .ok set) :
    ∃ state, RowsStep (.adapterConfirm resourceId epoch) rows set.rows state := by
  obtain ⟨⟨found, located⟩, hlocate, h⟩ := except_bind_ok _ _ _ h
  obtain ⟨hfound, hmem, -⟩ := locate_ok _ _ _ _ _ hlocate
  obtain rfl : found = rows := Option.some.inj (hfound.symm.trans hrows)
  dsimp only at h
  split at h
  · cases h
  split at h
  · cases h
  rename_i hpending
  cases h
  have hacquiring : ∀ row ∈ found, row.state.acquiring = true := by
    refine hunmixed.resolve_right fun hnone => ?_
    have hlocated := hnone located hmem
    rw [not_not.mp hpending] at hlocated
    cases hlocated
  refine ⟨fun row => if row.resourceId ≠ located.resourceId then row.state else .ACTIVE, ?_, ?_, .inl ?_⟩
  · refine List.map_congr_left fun row _ => ?_
    split <;> rfl
  · intro row hrow
    split
    · exact RowStep.keep _ row
    · refine ⟨fun hq => ?_, nofun⟩
      have := hacquiring row hrow
      rw [hq] at this
      cases this
  · intro row hrow
    obtain ⟨r, hr, rfl⟩ := List.mem_map.mp hrow
    split
    · exact hacquiring r hr
    · rfl

theorem failedState_acquiring (located row : ResourceRow) (disposition : AcquisitionFailure) :
    (failedState located disposition row).acquiring = false := by
  unfold failedState
  split <;> rfl

theorem oneOf_failure (v : Value) (h : oneOf AcquisitionFailure.text acquisitionFailures v = some .FAILED) :
    v = .string (lit "FAILED") := by
  unfold oneOf at h
  split at h
  · have htext := List.find?_some h
    rw [← of_decide_eq_true htext]
    rfl
  · cases h

theorem adapterFail_step (value resourceId epoch disposition : Value) (rows : List ResourceRow) (set : AcquisitionSet)
    (hrows : parseRows value = some rows) (hunmixed : Unmixed rows)
    (h : adapterFail value resourceId epoch disposition = .ok set) :
    ∃ state, RowsStep (.adapterFail resourceId epoch disposition) rows set.rows state := by
  obtain ⟨⟨found, located⟩, hlocate, h⟩ := except_bind_ok _ _ _ h
  obtain ⟨hfound, hmem, hid⟩ := locate_ok _ _ _ _ _ hlocate
  obtain rfl : found = rows := Option.some.inj (hfound.symm.trans hrows)
  dsimp only at h
  split at h
  · cases h
  rename_i failure hfailure
  split at h
  · cases h
  rename_i hstate
  cases h
  have hacquiring : ∀ row ∈ found, row.state.acquiring = true := by
    refine hunmixed.resolve_right fun hnone => ?_
    have hlocated := hnone located hmem
    revert hstate hlocated
    cases located.state <;> decide
  refine ⟨failedState located failure, rfl, fun row hrow => ?_, .inr ?_⟩
  · have hrow' := hacquiring row hrow
    refine ⟨fun hq => ?_, fun hfence _ hreleased => ?_⟩
    · rw [hq] at hrow'
      cases hrow'
    · have hsuspect : (decide (row.state = .ACTIVE ∨ row.state = .PENDING_ACQUIRE)) = true := by
        revert hrow'
        cases row.state <;> decide
      unfold failedState at hreleased
      split at hreleased
      · cases hreleased
      rename_i hcertain
      unfold uncertainRow at hcertain
      dsimp only at hcertain
      split at hcertain
      · rename_i hsame
        obtain rfl : failure = .FAILED := by
          revert hcertain
          cases failure <;> decide
        exact ⟨epoch, by rw [hid, hsame, oneOf_failure _ hfailure]⟩
      · rw [hsuspect, hfence] at hcertain
        exact absurd rfl hcertain
  · intro row hrow
    obtain ⟨r, -, rfl⟩ := List.mem_map.mp hrow
    exact failedState_acquiring located r failure

theorem grantSuccessorCapacity_step (value proofRef : Value) (rows : List ResourceRow) (set : AcquisitionSet)
    (hrows : parseRows value = some rows) (hunmixed : Unmixed rows)
    (h : grantSuccessorCapacity value proofRef = .ok set) :
    ∃ state, RowsStep (.grantSuccessorCapacity proofRef) rows set.rows state := by
  unfold grantSuccessorCapacity at h
  rw [hrows] at h
  dsimp only at h
  split at h
  · cases h
    exact ⟨ResourceRow.state, (List.map_id' rows).symm, fun row _ => RowStep.keep _ row, hunmixed⟩
  rename_i hany
  split at h
  · cases h
  rename_i proof hproof
  cases h
  have hsettled : ∀ row ∈ rows, row.state.acquiring = false := by
    refine hunmixed.resolve_left fun hall => ?_
    simp only [Bool.not_eq_true', Bool.not_eq_false, List.any_eq_true, decide_eq_true_eq] at hany
    obtain ⟨row, hrow, hq⟩ := hany
    have := hall row hrow
    rw [hq] at this
    cases this
  refine ⟨fun row => if row.state ≠ .QUARANTINED then row.state else .RELEASED, ?_, ?_, .inr ?_⟩
  · refine List.map_congr_left fun row _ => ?_
    split <;> rfl
  · intro row hrow
    refine ⟨fun _ _ => ⟨proofRef, rfl, by rw [hproof]; rfl⟩, fun _ hacquiring => ?_⟩
    rw [hsettled row hrow] at hacquiring
    cases hacquiring
  · intro row hrow
    obtain ⟨r, hr, rfl⟩ := List.mem_map.mp hrow
    split
    · exact hsettled r hr
    · rfl

theorem apply_step (value : Value) (call : AcquisitionCall) (rows : List ResourceRow) (set : AcquisitionSet)
    (hrows : parseRows value = some rows) (hunmixed : Unmixed rows) (h : call.apply value = .ok set) :
    ∃ state, RowsStep call rows set.rows state := by
  cases call with
  | adapterConfirm resourceId epoch => exact adapterConfirm_step value resourceId epoch rows set hrows hunmixed h
  | adapterFail resourceId epoch disposition =>
    exact adapterFail_step value resourceId epoch disposition rows set hrows hunmixed h
  | grantSuccessorCapacity proofRef => exact grantSuccessorCapacity_step value proofRef rows set hrows hunmixed h

/-! ### Runs -/

/-- The fields of a row that no call may touch. -/
def ResourceRow.fixed (r : ResourceRow) : JsString × ℤ × ℤ × JsString × Bool × Bool :=
  (r.resourceId, r.capacityUnits, r.epoch, r.effectIntentRef, r.external, r.fenceable)

structure AcquisitionInv (rows₀ : List ResourceRow) (value : Value) (rows : List ResourceRow) : Prop where
  parses : parseRows value = some rows
  wellFormed : RowsWellFormed rows
  fixed : rows.map ResourceRow.fixed = rows₀.map ResourceRow.fixed
  unmixed : Unmixed rows

theorem AcquisitionInv.step {rows₀ rows : List ResourceRow} {value : Value} (h : AcquisitionInv rows₀ value rows)
    (call : AcquisitionCall) :
    ∃ rows' state, AcquisitionInv rows₀ (acquisitionStep value call) rows' ∧ RowsStep call rows rows' state := by
  unfold acquisitionStep
  cases hcall : call.apply value with
  | error e =>
    exact ⟨rows, ResourceRow.state, h, (List.map_id' rows).symm, fun row _ => RowStep.keep call row, h.unmixed⟩
  | ok set =>
    obtain ⟨state, hstep⟩ := apply_step value call rows set h.parses h.unmixed hcall
    have hwell : RowsWellFormed set.rows := hstep.restated ▸ h.wellFormed.restate state
    refine ⟨set.rows, state, ⟨parseRows_rowsValue _ hwell, hwell, ?_, hstep.unmixed⟩, hstep⟩
    rw [hstep.restated, List.map_map, ← h.fixed]
    rfl

theorem AcquisitionInv.run {rows₀ rows : List ResourceRow} {value : Value} (h : AcquisitionInv rows₀ value rows)
    (calls : List AcquisitionCall) : ∃ rows', AcquisitionInv rows₀ (run acquisitionStep value calls) rows' := by
  induction calls generalizing value rows with
  | nil => exact ⟨rows, h⟩
  | cons call rest ih =>
    obtain ⟨rows', _, hstep, -⟩ := h.step call
    exact ih hstep

def rowAt (value : Value) (i : ℕ) : Option ResourceRow := (parseRows value).bind fun rows => rows[i]?

/-- A row that is never quarantined on the way gives its capacity back only on its own failure. -/
theorem AcquisitionInv.released {rows₀ rows : List ResourceRow} {value : Value} (h : AcquisitionInv rows₀ value rows)
    (calls : List AcquisitionCall) (i : ℕ) (row row' : ResourceRow) (hrow : rowAt value i = some row)
    (hfence : row.fenceable = false) (hacquiring : row.state.acquiring = true)
    (hrow' : rowAt (Lib.run acquisitionStep value calls) i = some row') (hreleased : row'.state = .RELEASED)
    (hclear : ∀ before r, before <+: calls → rowAt (Lib.run acquisitionStep value before) i = some r →
      r.state ≠ .QUARANTINED) :
    ∃ epoch, .adapterFail (.string row.resourceId) epoch (.string (lit "FAILED")) ∈ calls := by
  induction calls generalizing value rows row with
  | nil =>
    obtain rfl : row = row' := Option.some.inj (hrow.symm.trans hrow')
    rw [hreleased] at hacquiring
    cases hacquiring
  | cons call rest ih =>
    obtain ⟨next, state, hnext, hstep⟩ := h.step call
    have hmem : rows[i]? = some row := by simpa [rowAt, h.parses] using hrow
    have hnextRow : rowAt (acquisitionStep value call) i = some { row with state := state row } := by
      simp [rowAt, hnext.parses, hstep.restated, hmem]
    have hfirst := hclear [call] _ (by simp) hnextRow
    cases hs : state row with
    | QUARANTINED => exact absurd hs hfirst
    | RELEASED =>
      obtain ⟨epoch, rfl⟩ := (hstep.each row (List.mem_of_getElem? hmem)).releases hfence hacquiring hs
      exact ⟨epoch, List.mem_cons_self ..⟩
    | PENDING_ACQUIRE | ACTIVE =>
      obtain ⟨epoch, hin⟩ := ih hnext _ hnextRow hfence (by rw [hs]; rfl) hrow' fun before r hbefore hr =>
        hclear (call :: before) r (List.cons_prefix_cons.mpr ⟨rfl, hbefore⟩) hr
      exact ⟨epoch, List.mem_cons_of_mem _ hin⟩

/-- No capacity leak. From an accepted reservation, whatever the adapters
report: the rows keep their identity, they are never mixed, a quarantined row
is let go only by a proven successor grant, and a row that cannot be fenced is
freed directly only by its own reported failure. -/
theorem no_capacity_leak (request : Value) (rows₀ : List ResourceRow)
    (h : reserveAll request = .ok (.reserved rows₀)) (calls : List AcquisitionCall) :
    ∃ rows, parseRows (run acquisitionStep (rowsValue rows₀) calls) = some rows
      ∧ rows.map ResourceRow.fixed = rows₀.map ResourceRow.fixed
      ∧ Unmixed rows
      ∧ (∀ call, ∃ state : ResourceRow → AcquisitionState,
          parseRows (acquisitionStep (run acquisitionStep (rowsValue rows₀) calls) call) =
              some (rows.map fun row => { row with state := state row })
            ∧ ∀ row ∈ rows, RowStep call row (state row))
      ∧ ∀ later i row row', rows[i]? = some row → row.fenceable = false → row.state.acquiring = true →
          rowAt (run acquisitionStep (rowsValue rows₀) (calls ++ later)) i = some row' → row'.state = .RELEASED →
          (∀ before r, before <+: later →
            rowAt (run acquisitionStep (rowsValue rows₀) (calls ++ before)) i = some r → r.state ≠ .QUARANTINED) →
          ∃ epoch, .adapterFail (.string row.resourceId) epoch (.string (lit "FAILED")) ∈ later := by
  obtain ⟨hwell, hacquiring⟩ := reserveAll_reserved request rows₀ h
  have hstart : AcquisitionInv rows₀ (rowsValue rows₀) rows₀ :=
    ⟨parseRows_rowsValue rows₀ hwell, hwell, rfl, .inl hacquiring⟩
  obtain ⟨rows, hrun⟩ := hstart.run calls
  refine ⟨rows, hrun.parses, hrun.fixed, hrun.unmixed, fun call => ?_, ?_⟩
  · obtain ⟨rows', state, hnext, hstep⟩ := hrun.step call
    exact ⟨state, hstep.restated ▸ hnext.parses, hstep.each⟩
  · intro later i row row' hrow hfence hacq hrow' hreleased hclear
    rw [run_append] at hrow'
    simp only [run_append] at hclear
    exact hrun.released later i row row' (by simp [rowAt, hrun.parses, hrow]) hfence hacq hrow' hreleased hclear

def gpuAndToken : Value := recordOf [
  ("requestId", .string (lit "req-1")),
  ("declaredResources", .array [
    recordOf [("resourceId", .string (lit "token")), ("capacityUnits", .number (.integer 1)), ("external", .bool false),
      ("fenceable", .bool false)],
    recordOf [("resourceId", .string (lit "gpu")), ("capacityUnits", .number (.integer 2)), ("external", .bool true),
      ("fenceable", .bool true)]]),
  ("capacitySnapshot", recordOf [("gpu", .number (.integer 4)), ("token", .number (.integer 1))]),
  ("epoch", .number (.integer 7)), ("eligibilityEventSequenceRef", .string (lit "e")),
  ("continuouslyEligibleSinceRef", .string (lit "s")), ("callerObservation", .string (lit "o"))]

def gpuAndTokenRows : List ResourceRow := [
  ⟨lit "gpu", 2, 7, .PENDING_ACQUIRE, lit "intent:req-1:gpu", true, true⟩,
  ⟨lit "token", 1, 7, .ACTIVE, lit "intent:req-1:token", false, false⟩]

-- the gpu adapter fails, so the token that cannot be fenced is quarantined until a proof arrives
def gpuFails : List AcquisitionCall :=
  [.adapterFail (.string (lit "gpu")) (.number (.integer 7)) (.string (lit "FAILED")),
    .grantSuccessorCapacity (.string (lit "proof-1"))]

theorem no_capacity_leak_gpu :
    reserveAll gpuAndToken = .ok (.reserved gpuAndTokenRows)
      ∧ (∃ rows, parseRows (run acquisitionStep (rowsValue gpuAndTokenRows) gpuFails) = some rows ∧ Unmixed rows)
      ∧ (rowAt (run acquisitionStep (rowsValue gpuAndTokenRows) (gpuFails.take 1)) 1).map ResourceRow.state =
          some .QUARANTINED
      ∧ (rowAt (run acquisitionStep (rowsValue gpuAndTokenRows) gpuFails) 1).map ResourceRow.state = some .RELEASED := by
  have hreserved : reserveAll gpuAndToken = .ok (.reserved gpuAndTokenRows) := by decide +kernel
  obtain ⟨rows, hrows, -, hunmixed, -⟩ := no_capacity_leak gpuAndToken gpuAndTokenRows hreserved gpuFails
  exact ⟨hreserved, ⟨rows, hrows, hunmixed⟩, by decide +kernel, by decide +kernel⟩

end MoeNG.Authority
