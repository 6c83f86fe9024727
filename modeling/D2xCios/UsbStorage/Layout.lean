import D2xCios.UsbStorage.Descriptors

/-!
# The layout of the parameter block

Where the descriptors of a device lie is a matter of the block alone. `USB_GetDescriptors` is safe
if they lie inside it, if there is memory for the arrays they announce, and if the memory
that it does not write happens to be blank.
-/

namespace D2xCios.UsbStorage

open D2xCios.Lib

/-! ## Positions -/

namespace ParamBlock

variable (block : ParamBlock)

/-- The device descriptor. -/
def udd : DevDesc := DevDesc.read (block.bytes.drop 20)

/-- The interface descriptor behind the configuration descriptor at `p`. -/
def interfaceAt (p : Nat) : Nat := p + padded usbDtConfigSize

def ucd (p : Nat) : ConfigurationDesc := ConfigurationDesc.read (block.bytes.drop p)

def uid (p : Nat) : InterfaceDesc := InterfaceDesc.read (block.bytes.drop (interfaceAt p))

/-- The number of its endpoints. -/
def endpointCount (p : Nat) : Nat := (block.uid p).bNumEndpoints.toNat

/-- The endpoint descriptors, one behind the other. -/
def endpointAt (p : Nat) (j : Nat) : Nat :=
  (fun q => q + padded (block.bytes q).toNat)^[j]
    (interfaceAt p + padded (block.uid p).bLength.toNat)

def ued (p : Nat) (j : Nat) : EndpointDesc :=
  EndpointDesc.read (block.bytes.drop (block.endpointAt p j))

def ueds (p : Nat) : List EndpointDesc := (List.range (block.endpointCount p)).map (block.ued p)

/-- The configuration descriptors: the next one is behind the last endpoint. -/
def configurationAt (i : Nat) : Nat :=
  (fun p => block.endpointAt p (block.endpointCount p))^[i] (20 + padded block.udd.bLength.toNat)

/-- `USBStorage_Open` looks at the endpoints of the interface. -/
def Candidate (p : Nat) : Prop :=
  (block.uid p).isMassStorage = true ∧ ¬ (block.uid p).bNumEndpoints < 2

/-- `USBStorage_Open` takes the interface of the configuration descriptor at `p`. -/
def Chooses (p : Nat) : Prop :=
  block.Candidate p ∧ (bulkEndpoints (block.ueds p)).1 ≠ 0 ∧ (bulkEndpoints (block.ueds p)).2 ≠ 0

/-- It has taken that of a configuration before `k`. -/
def ChosenBefore (k : Nat) : Prop := ∃ i < k, block.Chooses (block.configurationAt i)

end ParamBlock

/-! ## Configurations -/

/-- The memory for the interface of configuration `i` happens to hold a `NULL` where `extra` is. -/
def Heap.Blank (heap : Heap) (i : Nat) : Prop :=
  (InterfaceDesc.read (heap.leaves (.interfaces i))).extra = .null

/-- The memory for configuration `i`, as it is allocated. -/
def Heap.held (heap : Heap) (i : Nat) : ConfigurationDesc :=
  ConfigurationDesc.read ((heap.leaves .configurations).drop (i * configurationSize))

/-- Configuration `i`, at `p`, announces an interface, there is memory for its arrays, and its
descriptors lie inside the block. -/
structure Complete (block : ParamBlock) (heap : Heap) (i p : Nat) : Prop where
  announces : (block.ucd p).bNumInterfaces ≠ 0
  interfaces : heap.grants (.interfaces i) = true
  endpoints : heap.grants (.endpoints i) = true
  inside : ParamBlock.interfaceAt p + usbDtInterfaceSize ≤ blockSize
  within : ∀ j < block.endpointCount p, block.endpointAt p j + usbDtEndpointSize ≤ blockSize

/-- There is no memory for an array of configuration `i`, and what is read before lies inside the
block. -/
inductive Stopped (block : ParamBlock) (heap : Heap) (i p : Nat) : Prop where
  | noInterfaces (refused : heap.grants (.interfaces i) = false)
      (inside : p + usbDtConfigSize ≤ blockSize)
  | noEndpoints (announces : (block.ucd p).bNumInterfaces ≠ 0)
      (granted : heap.grants (.interfaces i) = true) (refused : heap.grants (.endpoints i) = false)
      (inside : ParamBlock.interfaceAt p + usbDtInterfaceSize ≤ blockSize)

/-- Of configuration `k`, for which there was no memory, nothing is used: it announces no interface
or no endpoints that `USBStorage_Open` looks at, or the search ends before. -/
def Unused (block : ParamBlock) (heap : Heap) (k : Nat) : Prop :=
  if heap.grants (.interfaces k) then
    heap.Blank k ∧ (¬ block.Candidate (block.configurationAt k) ∨ block.ChosenBefore k)
  else (block.ucd (block.configurationAt k)).bNumInterfaces = 0 ∨ block.ChosenBefore k

/-- The memory for configuration `i`, behind `k`, happens to have no interfaces. -/
def Untouched (block : ParamBlock) (heap : Heap) (k i : Nat) : Prop :=
  (heap.held i).interfaces = .null ∧ ((heap.held i).bNumInterfaces = 0 ∨ block.ChosenBefore k)

/-- Up to the last configuration, or to one for which there is no memory, all are complete with
blank memory; and nothing else is used. -/
def Orderly (block : ParamBlock) (heap : Heap) (n : Nat) : Prop :=
  ∃ k ≤ n, (∀ i < k, Complete block heap i (block.configurationAt i) ∧ heap.Blank i) ∧
    (k = n ∨ Stopped block heap k (block.configurationAt k) ∧ Unused block heap k ∧
      ∀ i, k < i → i < n → Untouched block heap k i)

/-- The caller's descriptor happens to hold no configurations. -/
def Vacant (stack : Bytes) : Prop :=
  (DevDesc.read stack).bNumConfigurations = 0 ∧ (DevDesc.read stack).configurations = .null

/-- The device is not found; or its descriptor is not read but the call succeeds (there is no
memory for the buffers, or the ioctl gives a positive result), and the caller's happens to be
vacant; or the ioctl fails; or the device has no configuration; or they are orderly. -/
def Sound (call : Call) (stack : Bytes) : Prop :=
  call.found < 0 ∨ call.Refused ∧ Vacant stack ∨
    ¬ call.Refused ∧
      (call.ret < 0 ∨ 0 < call.ret ∧ Vacant stack ∨
        call.ret = 0 ∧ (call.block.udd.bNumConfigurations = 0 ∨
          call.heap.grants .configurations = true ∧
            Orderly call.block call.heap call.block.udd.bNumConfigurations.toNat))

/-! ## Runs -/

section Runs

variable {block : ParamBlock} {heap : Heap}

/-- A read that stays inside the block. -/
theorem fetch_inside {next count : Nat} (inside : next + count ≤ blockSize) :
    fetch block next count = .ok (block.bytes.drop next) := if_pos inside

/-- A read that leaves the block. -/
theorem fetch_outside {next count : Nat} (outside : ¬ next + count ≤ blockSize) :
    fetch block next count = .error .readsOutside := if_neg outside

/-- A granted array holds what its memory held before. -/
theorem Heap.alloc_granted {α : Type} {allocation : Allocation}
    (granted : heap.grants allocation = true) (count : UInt8) (size : Nat) (read : Bytes → α) :
    heap.alloc allocation count size read = .array ((List.range count.toNat).map fun i =>
      read ((heap.leaves allocation).drop (i * size))) := if_pos granted

/-- A refused array is a null pointer. -/
theorem Heap.alloc_refused {α : Type} {allocation : Allocation}
    (refused : heap.grants allocation = false) (count : UInt8) (size : Nat) (read : Bytes → α) :
    heap.alloc allocation count size read = .null := by
  rw [alloc, refused, if_neg Bool.false_ne_true]

theorem ParamBlock.endpointAt_succ (p j : Nat) :
    block.endpointAt p (j + 1) =
      block.endpointAt p j + padded (block.bytes (block.endpointAt p j)).toNat :=
  Function.iterate_succ_apply' _ _ _

/-- A configuration lies behind the endpoints of the one in front of it. -/
theorem ParamBlock.configurationAt_succ (i : Nat) :
    block.configurationAt (i + 1) =
      block.endpointAt (block.configurationAt i) (block.endpointCount (block.configurationAt i)) :=
  Function.iterate_succ_apply' _ _ _

/-- The endpoints inside the block are read one after the other. -/
theorem endpoint_movesOn {p k : Nat}
    (within : ∀ j < k, block.endpointAt p j + usbDtEndpointSize ≤ blockSize)
    (cleared : List EndpointDesc) :
    MovesOn (endpoint block) (block.ued p) (block.endpointAt p) cleared k := by
  intro j below ued _
  rw [endpoint, fetch_inside (within j below), ParamBlock.endpointAt_succ]
  rfl

/-- The loop over the endpoints reads all of them if they lie inside the block. -/
theorem endpoints_filled {p : Nat} {cleared : List EndpointDesc}
    (length : cleared.length = block.endpointCount p)
    (within : ∀ j < block.endpointCount p, block.endpointAt p j + usbDtEndpointSize ≤ blockSize) :
    fillFrom .writesOutside (endpoint block) (block.endpointCount p) 0 cleared
        (block.endpointAt p 0) =
      .ok (block.ueds p, some (block.endpointAt p (block.endpointCount p))) := by
  rw [← length]
  rw [← length] at within
  rw [fillFrom_all (endpoint_movesOn within cleared), length]
  rfl

/-- An endpoint outside the block is a fault. -/
theorem endpoints_outside {p : Nat} {cleared : List EndpointDesc}
    (length : cleared.length = block.endpointCount p)
    (outside : ¬ ∀ j < block.endpointCount p,
      block.endpointAt p j + usbDtEndpointSize ≤ blockSize) :
    fillFrom .writesOutside (endpoint block) (block.endpointCount p) 0 cleared
      (block.endpointAt p 0) = .error .readsOutside := by
  obtain ⟨k, le, within, first⟩ := exists_first
    (fun j => block.endpointAt p j + usbDtEndpointSize ≤ blockSize) (block.endpointCount p)
  have below : k < block.endpointCount p := by
    refine Nat.lt_of_le_of_ne le fun same => outside ?_
    rw [← same]
    exact within
  rw [← length]
  rw [← length] at below
  refine fillFrom_failed (endpoint_movesOn within cleared) below ?_
  rw [endpoint, fetch_outside (first (length ▸ below))]
  rfl

/-- The interface of configuration `i` at `p` in the array of the call, without endpoints. -/
def parsedInterface (block : ParamBlock) (heap : Heap) (i p : Nat) : InterfaceDesc :=
  (InterfaceDesc.read (heap.leaves (.interfaces i))).copy
    (block.bytes.drop (ParamBlock.interfaceAt p))

/-- The configuration at `p`, with the interfaces that were allocated for it. -/
def parsedConfiguration (block : ParamBlock) (p : Nat) (interfaces : Pointer InterfaceDesc) :
    ConfigurationDesc :=
  { block.ucd p with
    bNumInterfaces :=
      if (block.ucd p).bNumInterfaces ≠ 0 then 1 else (block.ucd p).bNumInterfaces
    interfaces := interfaces }

/-- A complete configuration. -/
def parsed (block : ParamBlock) (heap : Heap) (i p : Nat) : ConfigurationDesc :=
  parsedConfiguration block p
    (.array [{ parsedInterface block heap i p with endpoints := .array (block.ueds p) }])

/-- A configuration for which there is no memory. -/
def parsedInPart (block : ParamBlock) (heap : Heap) (i p : Nat) : ConfigurationDesc :=
  parsedConfiguration block p
    (if heap.grants (.interfaces i) then
      .array [{ parsedInterface block heap i p with endpoints := .null }]
    else .null)

/-- What the search reads of the interface is what the block has. -/
theorem parsedInterface_isMassStorage (i p : Nat) (endpoints : Pointer EndpointDesc) :
    ({ parsedInterface block heap i p with endpoints := endpoints } : InterfaceDesc).isMassStorage =
      (block.uid p).isMassStorage := by
  simp only [InterfaceDesc.isMassStorage, parsedInterface, InterfaceDesc.copy, ParamBlock.uid,
    InterfaceDesc.read]
  exact decide_eq_decide.2 Iff.rfl

/-- The number of endpoints comes from the block, wherever they are stored. -/
theorem parsedInterface_bNumEndpoints (i p : Nat) (endpoints : Pointer EndpointDesc) :
    ({ parsedInterface block heap i p with endpoints := endpoints } : InterfaceDesc).bNumEndpoints =
      (block.uid p).bNumEndpoints := by
  simp only [parsedInterface, InterfaceDesc.copy, ParamBlock.uid, InterfaceDesc.read]

theorem Bytes.drop_zero (b : Bytes) : b.drop 0 = b := funext fun j => congrArg b (Nat.zero_add j)

/-- The array of one interface, before it is written. -/
theorem alloc_interface {i : Nat} (granted : heap.grants (.interfaces i) = true) :
    heap.alloc (.interfaces i) 1 interfaceSize InterfaceDesc.read =
      .array [InterfaceDesc.read (heap.leaves (.interfaces i))] := by
  rw [Heap.alloc_granted granted]
  have one : (List.range (1 : UInt8).toNat) = [0] := rfl
  rw [one, List.map_singleton, Nat.zero_mul, Bytes.drop_zero]

/-- The interface inside the block, with memory for its endpoints. -/
theorem interface_granted {i p : Nat}
    (inside : ParamBlock.interfaceAt p + usbDtInterfaceSize ≤ blockSize)
    (granted : heap.grants (.endpoints i) = true) :
    ∃ cleared : List EndpointDesc, cleared.length = block.endpointCount p ∧
      interface block heap i [InterfaceDesc.read (heap.leaves (.interfaces i))]
          (ParamBlock.interfaceAt p) =
        (fillFrom .writesOutside (endpoint block) (block.endpointCount p) 0 cleared
            (block.endpointAt p 0) >>= fun (ueds, next) =>
          .ok ([{ parsedInterface block heap i p with endpoints := .array ueds }], next)) := by
  rw [interface, fetch_inside inside]
  dsimp only [bind, Except.bind]
  rw [Heap.alloc_granted granted]
  refine ⟨_, ?_, rfl⟩
  rw [List.length_map, List.length_map, List.length_range]
  rfl

/-- Without memory for the endpoints the interface keeps none. -/
theorem interface_refused {i p : Nat}
    (inside : ParamBlock.interfaceAt p + usbDtInterfaceSize ≤ blockSize)
    (refused : heap.grants (.endpoints i) = false) :
    interface block heap i [InterfaceDesc.read (heap.leaves (.interfaces i))]
        (ParamBlock.interfaceAt p) =
      .ok ([{ parsedInterface block heap i p with endpoints := .null }], none) := by
  rw [interface, fetch_inside inside]
  dsimp only [bind, Except.bind]
  rw [Heap.alloc_refused refused]
  rfl

/-- What a configuration does with the array for its interface. -/
theorem configuration_granted {i p : Nat} (ucd : ConfigurationDesc)
    (inside : p + usbDtConfigSize ≤ blockSize) (announces : (block.ucd p).bNumInterfaces ≠ 0)
    (granted : heap.grants (.interfaces i) = true) :
    configuration block heap i ucd p =
      (interface block heap i [InterfaceDesc.read (heap.leaves (.interfaces i))]
          (ParamBlock.interfaceAt p) >>= fun (uids, next) =>
        .ok (parsedConfiguration block p (.array uids), next)) := by
  have some : (ucd.copy (block.bytes.drop p)).bNumInterfaces ≠ 0 := announces
  have shape (q : Pointer InterfaceDesc) : parsedConfiguration block p q =
      { ucd.copy (block.bytes.drop p) with bNumInterfaces := 1, interfaces := q } := by
    rw [parsedConfiguration, if_pos announces]
    rfl
  rw [configuration, fetch_inside inside]
  dsimp only [bind, Except.bind]
  rw [if_pos some]
  dsimp only
  rw [alloc_interface granted]
  simp only [shape]
  rfl

/-- Without memory for the interfaces the configuration keeps none, and the walk stops. -/
theorem configuration_refused {i p : Nat} (ucd : ConfigurationDesc)
    (inside : p + usbDtConfigSize ≤ blockSize) (refused : heap.grants (.interfaces i) = false) :
    configuration block heap i ucd p = .ok (parsedConfiguration block p .null, none) := by
  rw [configuration, fetch_inside inside]
  dsimp only [bind, Except.bind]
  rw [Heap.alloc_refused refused, parsedConfiguration]
  by_cases announces : (block.ucd p).bNumInterfaces ≠ 0
  · have some : (ucd.copy (block.bytes.drop p)).bNumInterfaces ≠ 0 := announces
    rw [if_pos announces, if_pos some]
    rfl
  · have zero : ¬ (ucd.copy (block.bytes.drop p)).bNumInterfaces ≠ 0 := announces
    rw [if_neg announces, if_neg zero]
    rfl

/-- A configuration with an array for its interface, but no interface. -/
theorem configuration_empty {i p : Nat} (ucd : ConfigurationDesc)
    (empty : (block.ucd p).bNumInterfaces = 0) (granted : heap.grants (.interfaces i) = true) :
    ∃ e, configuration block heap i ucd p = .error e := by
  by_cases inside : p + usbDtConfigSize ≤ blockSize
  case neg => exact ⟨.readsOutside, by rw [configuration, fetch_outside inside]; rfl⟩
  have zero : (ucd.copy (block.bytes.drop p)).bNumInterfaces = 0 := empty
  rw [configuration, fetch_inside inside]
  dsimp only [bind, Except.bind]
  rw [if_neg (not_not.2 zero), Heap.alloc_granted granted, zero]
  dsimp only [UInt8.toNat_zero, List.range_zero, List.map_nil]
  by_cases next : p + padded usbDtConfigSize + usbDtInterfaceSize ≤ blockSize
  · exact ⟨.writesOutside, by rw [interface, fetch_inside next]; rfl⟩
  · exact ⟨.readsOutside, by rw [interface, fetch_outside next]; rfl⟩

/-- A complete configuration is read as it stands in the block. -/
theorem configuration_complete {i p : Nat} (complete : Complete block heap i p)
    (ucd : ConfigurationDesc) :
    configuration block heap i ucd p =
      .ok (parsed block heap i p, some (block.endpointAt p (block.endpointCount p))) := by
  have inside : p + usbDtConfigSize ≤ blockSize := by
    have further := complete.inside
    rw [ParamBlock.interfaceAt] at further
    simp only [padded, usbDtConfigSize, usbDtInterfaceSize] at further ⊢
    omega
  obtain ⟨cleared, length, run⟩ := interface_granted complete.inside complete.endpoints
  rw [configuration_granted ucd inside complete.announces complete.interfaces, run,
    endpoints_filled length complete.within]
  rfl

/-- A configuration at which the walk stops is read in part. -/
theorem configuration_stopped {i p : Nat} (stopped : Stopped block heap i p)
    (ucd : ConfigurationDesc) :
    configuration block heap i ucd p = .ok (parsedInPart block heap i p, none) := by
  cases stopped with
  | noInterfaces refused inside =>
    rw [configuration_refused ucd inside refused, parsedInPart, refused,
      if_neg Bool.false_ne_true]
  | noEndpoints announces granted refused inside =>
    have before : p + usbDtConfigSize ≤ blockSize := by
      rw [ParamBlock.interfaceAt] at inside
      simp only [padded, usbDtConfigSize, usbDtInterfaceSize] at inside ⊢
      omega
    rw [configuration_granted ucd before announces granted, interface_refused inside refused,
      parsedInPart, if_pos granted]
    rfl

/-- Any other configuration fails. -/
theorem configuration_fails {i p : Nat} (incomplete : ¬ Complete block heap i p)
    (unstopped : ¬ Stopped block heap i p) (ucd : ConfigurationDesc) :
    ∃ e, configuration block heap i ucd p = .error e := by
  by_cases inside : p + usbDtConfigSize ≤ blockSize
  case neg => exact ⟨.readsOutside, by rw [configuration, fetch_outside inside]; rfl⟩
  cases granted : heap.grants (.interfaces i) with
  | false => exact absurd (.noInterfaces granted inside) unstopped
  | true =>
    by_cases announces : (block.ucd p).bNumInterfaces = 0
    · exact configuration_empty ucd announces granted
    rw [configuration_granted ucd inside announces granted]
    by_cases further : ParamBlock.interfaceAt p + usbDtInterfaceSize ≤ blockSize
    case neg => exact ⟨.readsOutside, by rw [interface, fetch_outside further]; rfl⟩
    cases last : heap.grants (.endpoints i) with
    | false => exact absurd (.noEndpoints announces granted last further) unstopped
    | true =>
      obtain ⟨cleared, length, run⟩ := interface_granted further last
      have outside : ¬ ∀ j < block.endpointCount p,
          block.endpointAt p j + usbDtEndpointSize ≤ blockSize := fun within =>
        incomplete ⟨announces, granted, last, further, within⟩
      exact ⟨.readsOutside, by rw [run, endpoints_outside length outside]; rfl⟩

/-! ## The arrays in use -/

theorem Pointer.entries_zero {α : Type} (p : Pointer α) : p.entries 0 = .ok [] := if_pos rfl

/-- Announced entries of a null array are read through a wild pointer. -/
theorem Pointer.entries_null {α : Type} {announced : UInt8} (some : announced ≠ 0) :
    (null : Pointer α).entries announced = .error .wildPointer := if_neg some

/-- Announced entries of a stale pointer are read through a wild pointer. -/
theorem Pointer.entries_stale {α : Type} (word : UInt32) {announced : UInt8}
    (some : announced ≠ 0) :
    (stale word : Pointer α).entries announced = .error .wildPointer := if_neg some

/-- An array of the announced length is read whole. -/
theorem Pointer.entries_array {α : Type} {xs : List α} {announced : UInt8}
    (length : xs.length = announced.toNat) : (array xs).entries announced = .ok xs := by
  by_cases zero : announced = 0
  · subst zero
    rw [entries_zero, List.eq_nil_of_length_eq_zero length]
  · rw [entries, if_neg zero]
    exact if_pos length

/-- A word that was found is no array of the call. -/
theorem Pointer.ofWord_cases {α : Type} (word : UInt32) :
    (ofWord word : Pointer α) = null ∨ ∃ found, (ofWord word : Pointer α) = stale found := by
  rw [ofWord]
  split
  · exact .inl rfl
  · exact .inr ⟨word, rfl⟩

/-- A word that was left in the memory can be freed only if it is null. -/
theorem Pointer.free_ofWord {α : Type} (word : UInt32) :
    (ofWord word : Pointer α).free = .ok () ↔ (ofWord word : Pointer α) = null := by
  rcases @ofWord_cases α word with null | ⟨found, stale⟩
  · rw [null]
    exact iff_of_true rfl rfl
  · rw [stale]
    exact iff_of_false (fun ran => by cases ran) fun same => by cases same

/-- Entries behind a word that was left in the memory are read through a wild pointer. -/
theorem Pointer.entries_ofWord {α : Type} (word : UInt32) {announced : UInt8}
    (some : announced ≠ 0) : (ofWord word : Pointer α).entries announced = .error .wildPointer := by
  rcases @ofWord_cases α word with null | ⟨found, stale⟩
  · rw [null, entries_null some]
  · rw [stale, entries_stale found some]

/-- An interface with its endpoints. -/
theorem choose_interface (p : Nat) {uid : InterfaceDesc}
    (same : uid.isMassStorage = (block.uid p).isMassStorage)
    (count : uid.bNumEndpoints = (block.uid p).bNumEndpoints)
    (endpoints : uid.endpoints = .array (block.ueds p)) :
    ∃ found, uid.choose = .ok found ∧ (found.isSome ↔ block.Chooses p) := by
  have length : (block.ueds p).length = uid.bNumEndpoints.toNat := by
    rw [count, ParamBlock.ueds, List.length_map, List.length_range]
    rfl
  rw [InterfaceDesc.choose, endpoints, Pointer.entries_array length, ParamBlock.Chooses,
    ParamBlock.Candidate, ← same, ← count]
  by_cases mass : uid.isMassStorage = true
  case neg =>
    rw [if_neg mass]
    exact ⟨none, rfl, iff_of_false Bool.false_ne_true fun all => mass all.1.1⟩
  by_cases few : uid.bNumEndpoints < 2
  case pos =>
    rw [if_pos mass, if_pos few]
    exact ⟨none, rfl, iff_of_false Bool.false_ne_true fun all => all.1.2 few⟩
  rw [if_pos mass, if_neg few]
  dsimp only [bind, Except.bind]
  by_cases both : (bulkEndpoints (block.ueds p)).1 ≠ 0 ∧ (bulkEndpoints (block.ueds p)).2 ≠ 0
  · rw [if_pos both]
    exact ⟨_, rfl, iff_of_true rfl ⟨⟨mass, few⟩, both⟩⟩
  · rw [if_neg both]
    exact ⟨none, rfl, iff_of_false Bool.false_ne_true fun all => both all.2⟩

/-- An interface without memory for its endpoints. -/
theorem choose_interface_null (p : Nat) {uid : InterfaceDesc}
    (same : uid.isMassStorage = (block.uid p).isMassStorage)
    (count : uid.bNumEndpoints = (block.uid p).bNumEndpoints) (endpoints : uid.endpoints = .null) :
    block.Candidate p ∧ uid.choose = .error .wildPointer ∨
      ¬ block.Candidate p ∧ uid.choose = .ok none := by
  rw [InterfaceDesc.choose, endpoints, ParamBlock.Candidate, ← same, ← count]
  by_cases mass : uid.isMassStorage = true
  case neg => exact .inr ⟨fun all => mass all.1, if_neg mass⟩
  rw [if_pos mass]
  by_cases few : uid.bNumEndpoints < 2
  case pos => exact .inr ⟨fun all => all.2 few, if_pos few⟩
  have some : uid.bNumEndpoints ≠ 0 := fun zero => few (zero ▸ by decide)
  rw [if_neg few, Pointer.entries_null some]
  exact .inl ⟨⟨mass, few⟩, rfl⟩

section Parsed

variable {i p : Nat}

/-- A configuration with one interface is searched in that one. -/
theorem entries_one (announces : (block.ucd p).bNumInterfaces ≠ 0) (uid : InterfaceDesc) :
    (parsedConfiguration block p (.array [uid])).interfaces.entries
      (parsedConfiguration block p (.array [uid])).bNumInterfaces = .ok [uid] := by
  have one : (parsedConfiguration block p (.array [uid])).bNumInterfaces = 1 := if_pos announces
  rw [one]
  exact Pointer.entries_array rfl

/-- The search in a configuration with one interface. -/
theorem choose_one (announces : (block.ucd p).bNumInterfaces ≠ 0) {uid : InterfaceDesc}
    {found : Option (UInt8 × UInt8)} (chosen : uid.choose = .ok found) :
    ∃ found', (parsedConfiguration block p (.array [uid])).choose = .ok found' ∧
      (found'.isSome ↔ found.isSome) := by
  rw [ConfigurationDesc.choose, entries_one announces]
  dsimp only [bind, Except.bind]
  rw [List.findSomeM?_cons, chosen]
  cases found with
  | none => exact ⟨none, rfl, Iff.rfl⟩
  | some ends => exact ⟨_, rfl, iff_of_true rfl rfl⟩

/-- A fault in the one interface is a fault in the search of its configuration. -/
theorem choose_one_error (announces : (block.ucd p).bNumInterfaces ≠ 0) {uid : InterfaceDesc}
    {e : Fault} (failed : uid.choose = .error e) :
    (parsedConfiguration block p (.array [uid])).choose = .error e := by
  rw [ConfigurationDesc.choose, entries_one announces]
  dsimp only [bind, Except.bind]
  rw [List.findSomeM?_cons, failed]
  rfl

/-- The search of a complete configuration finds what the block has there. -/
theorem choose_parsed (announces : (block.ucd p).bNumInterfaces ≠ 0) (heap : Heap) (i : Nat) :
    ∃ found, (parsed block heap i p).choose = .ok found ∧ (found.isSome ↔ block.Chooses p) := by
  obtain ⟨found, chosen, some⟩ := @choose_interface block p
    { parsedInterface block heap i p with endpoints := .array (block.ueds p) }
    (parsedInterface_isMassStorage i p _) (parsedInterface_bNumEndpoints i p _) rfl
  obtain ⟨found', chosen', same⟩ := choose_one announces chosen
  exact ⟨found', chosen', same.trans some⟩

/-- Nothing is found in a configuration without memory, and the search goes on behind it only if
there is nothing to look at. -/
theorem choose_inPart (stopped : Stopped block heap i p) :
    (∃ e, (parsedInPart block heap i p).choose = .error e) ∧
        ¬ (if heap.grants (.interfaces i) then ¬ block.Candidate p
          else (block.ucd p).bNumInterfaces = 0) ∨
      (parsedInPart block heap i p).choose = .ok none ∧
        (if heap.grants (.interfaces i) then ¬ block.Candidate p
          else (block.ucd p).bNumInterfaces = 0) := by
  cases stopped with
  | noInterfaces refused _ =>
    rw [parsedInPart, refused, if_neg Bool.false_ne_true, if_neg Bool.false_ne_true,
      ConfigurationDesc.choose]
    by_cases announces : (block.ucd p).bNumInterfaces = 0
    · have zero : (parsedConfiguration block p .null).bNumInterfaces = 0 :=
        (if_neg (not_not.2 announces)).trans announces
      rw [zero, Pointer.entries_zero]
      exact .inr ⟨rfl, announces⟩
    · have one : (parsedConfiguration block p .null).bNumInterfaces = 1 := if_pos announces
      have some : (1 : UInt8) ≠ 0 := by decide
      rw [one]
      refine .inl ⟨⟨.wildPointer, ?_⟩, announces⟩
      change (Pointer.null : Pointer InterfaceDesc).entries 1 >>= _ = _
      rw [Pointer.entries_null some]
      rfl
  | noEndpoints announces granted _ _ =>
    rw [parsedInPart, if_pos granted, if_pos granted]
    rcases @choose_interface_null block p
      { parsedInterface block heap i p with endpoints := .null }
      (parsedInterface_isMassStorage i p _) (parsedInterface_bNumEndpoints i p _) rfl with
      ⟨candidate, failed⟩ | ⟨other, chosen⟩
    · exact .inl ⟨⟨_, choose_one_error announces failed⟩, not_not.2 candidate⟩
    · obtain ⟨found, chosen', same⟩ := choose_one announces chosen
      have nothing : found = none := Option.not_isSome_iff_eq_none.1 (mt same.1 Bool.false_ne_true)
      exact .inr ⟨nothing ▸ chosen', other⟩

/-- The search of a configuration that was never read ends in a fault, unless its memory announces
no interfaces. -/
theorem choose_held (heap : Heap) (i : Nat) :
    (∃ e, (heap.held i).choose = .error e) ∧ (heap.held i).bNumInterfaces ≠ 0 ∨
      (heap.held i).choose = .ok none ∧ (heap.held i).bNumInterfaces = 0 := by
  rw [ConfigurationDesc.choose]
  by_cases zero : (heap.held i).bNumInterfaces = 0
  · rw [zero, Pointer.entries_zero]
    exact .inr ⟨rfl, rfl⟩
  · refine .inl ⟨⟨.wildPointer, ?_⟩, zero⟩
    have entries : (heap.held i).interfaces.entries (heap.held i).bNumInterfaces =
        .error .wildPointer := Pointer.entries_ofWord _ zero
    rw [entries]
    rfl

/-! ## What is freed -/

/-- A configuration with one interface is freed as that interface is. -/
theorem free_one (announces : (block.ucd p).bNumInterfaces ≠ 0) {uid : InterfaceDesc} :
    (parsedConfiguration block p (.array [uid])).free = .ok () ↔ uid.free = .ok () := by
  have entries := entries_one announces uid
  have free : (parsedConfiguration block p (.array [uid])).free =
      ((parsedConfiguration block p (.array [uid])).interfaces.entries
        (parsedConfiguration block p (.array [uid])).bNumInterfaces >>= fun uids =>
          uids.forM InterfaceDesc.free >>= fun _ => .ok ()) := rfl
  rw [free, entries]
  dsimp only [bind, Except.bind]
  rw [← List.forall_mem_singleton (p := fun uid => InterfaceDesc.free uid = .ok ()),
    ← forM_ok_iff]
  cases List.forM [uid] InterfaceDesc.free with
  | error e => exact iff_of_false (fun ran => by cases ran) fun ran => by cases ran
  | ok _ => exact iff_of_true rfl rfl

/-- A complete configuration is freed if the memory of its interface was blank. -/
theorem free_parsed (announces : (block.ucd p).bNumInterfaces ≠ 0) (heap : Heap) (i : Nat) :
    (parsed block heap i p).free = .ok () ↔ heap.Blank i := by
  rw [parsed, free_one announces]
  exact Pointer.free_ofWord _

/-- A configuration read in part is freed if its interface is null or its memory was blank. -/
theorem free_inPart (stopped : Stopped block heap i p) :
    (parsedInPart block heap i p).free = .ok () ↔
      (heap.grants (.interfaces i) = true → heap.Blank i) := by
  cases stopped with
  | noInterfaces refused _ =>
    rw [parsedInPart, refused, if_neg Bool.false_ne_true]
    exact iff_of_true rfl fun granted => absurd granted Bool.false_ne_true
  | noEndpoints announces granted _ _ =>
    rw [parsedInPart, if_pos granted, free_one announces]
    exact (Pointer.free_ofWord _).trans (imp_iff_right granted).symm

/-- A configuration that was never read is freed if its memory holds a null pointer. -/
theorem free_held (heap : Heap) (i : Nat) :
    (heap.held i).free = .ok () ↔ (heap.held i).interfaces = .null := by
  rw [ConfigurationDesc.free]
  have word : (heap.held i).interfaces = .ofWord _ := rfl
  rcases @Pointer.ofWord_cases InterfaceDesc _ with null | ⟨found, stale⟩
  · rw [word, null]
    exact iff_of_true rfl rfl
  · rw [word, stale]
    refine iff_of_false (fun ran => ?_) fun same => by cases same
    dsimp only [bind, Except.bind] at ran
    by_cases zero : (heap.held i).bNumInterfaces = 0
    · rw [zero, Pointer.entries_zero] at ran
      cases ran
    · rw [Pointer.entries_stale found zero] at ran
      cases ran

end Parsed

/-! ## Whole runs -/

/-- The configurations are searched and freed. -/
def Served (ucds : List ConfigurationDesc) : Prop :=
  (∃ found, ucds.findSomeM? ConfigurationDesc.choose = .ok found) ∧
    ucds.forM ConfigurationDesc.free = .ok ()

/-- What serving a device asks of each of its configurations. -/
theorem served_range (ucds : Nat → ConfigurationDesc) (n : Nat) :
    Served ((List.range n).map ucds) ↔
      (∀ i < n, (∃ found, (ucds i).choose = .ok found) ∨
        ∃ j < i, ∃ chosen, (ucds j).choose = .ok (some chosen)) ∧
      ∀ i < n, (ucds i).free = .ok () := by
  rw [Served, findSomeM?_range_ok_iff, forM_ok_iff, List.forall_mem_map]
  simp only [List.mem_range]

/-- The configuration `i` when it is complete. -/
abbrev made (block : ParamBlock) (heap : Heap) (i : Nat) : ConfigurationDesc :=
  parsed block heap i (block.configurationAt i)

/-- A complete configuration is chosen if the block has the interface that is looked for. -/
theorem made_chosen {i : Nat} (complete : Complete block heap i (block.configurationAt i)) :
    (∃ chosen, (made block heap i).choose = .ok (some chosen)) ↔
      block.Chooses (block.configurationAt i) := by
  obtain ⟨found, chosen, some⟩ := choose_parsed complete.announces heap i
  rw [← some, Option.isSome_iff_exists, chosen]
  exact exists_congr fun _ => ⟨fun same => Except.ok.inj same, congrArg _⟩

/-- With every configuration complete the device is served if the memory was blank. -/
theorem served_complete {n : Nat}
    (complete : ∀ i < n, Complete block heap i (block.configurationAt i)) :
    Served ((List.range n).map (made block heap)) ↔ ∀ i < n, heap.Blank i := by
  rw [served_range]
  refine ⟨fun ⟨_, freed⟩ i below => ?_, fun blank => ⟨fun i below => .inl ?_, fun i below => ?_⟩⟩
  · exact (free_parsed (complete i below).announces heap i).1 (freed i below)
  · obtain ⟨found, chosen, -⟩ := choose_parsed (complete i below).announces heap i
    exact ⟨found, chosen⟩
  · exact (free_parsed (complete i below).announces heap i).2 (blank i below)

/-- There is nothing to look at in the configuration at `p`, for which there was no memory. -/
def NothingSeen (block : ParamBlock) (heap : Heap) (k p : Nat) : Prop :=
  if heap.grants (.interfaces k) then ¬ block.Candidate p else (block.ucd p).bNumInterfaces = 0

/-- What is asked of the configuration at which the walk stops. -/
theorem unused_iff {k : Nat} :
    Unused block heap k ↔ (heap.grants (.interfaces k) = true → heap.Blank k) ∧
      (NothingSeen block heap k (block.configurationAt k) ∨ block.ChosenBefore k) := by
  rw [Unused, NothingSeen]
  cases heap.grants (.interfaces k) with
  | true =>
    rw [if_pos rfl, if_pos rfl]
    exact and_congr_left fun _ => (imp_iff_right rfl).symm
  | false =>
    rw [if_neg Bool.false_ne_true, if_neg Bool.false_ne_true]
    exact (and_iff_right fun granted => absurd granted Bool.false_ne_true).symm

section Stopped

variable {k : Nat} (complete : ∀ i < k, Complete block heap i (block.configurationAt i))
  (stopped : Stopped block heap k (block.configurationAt k))

/-- The array that is left. -/
abbrev leftover (block : ParamBlock) (heap : Heap) (k : Nat) : Nat → ConfigurationDesc :=
  leftAt (made block heap) k (parsedInPart block heap k (block.configurationAt k)) heap.held

include complete stopped

/-- From the configuration without memory on nothing is found. -/
theorem leftover_chosen {i : Nat} (reached : k ≤ i) :
    (∃ j < i, ∃ chosen, (leftover block heap k j).choose = .ok (some chosen)) ↔
      block.ChosenBefore k := by
  constructor
  · rintro ⟨j, -, chosen, found⟩
    rcases Nat.lt_trichotomy j k with before | rfl | behind
    · rw [leftover, leftAt_before _ _ before] at found
      exact ⟨j, before, (made_chosen (complete j before)).1 ⟨chosen, found⟩⟩
    · rw [leftover, leftAt_same] at found
      rcases choose_inPart stopped with ⟨⟨e, failed⟩, -⟩ | ⟨nothing, -⟩
      · cases failed.symm.trans found
      · cases nothing.symm.trans found
    · rw [leftover, leftAt_behind _ _ behind] at found
      rcases choose_held heap j with ⟨⟨e, failed⟩, -⟩ | ⟨nothing, -⟩
      · cases failed.symm.trans found
      · cases nothing.symm.trans found
  · rintro ⟨j, before, chooses⟩
    obtain ⟨chosen, found⟩ := (made_chosen (complete j before)).2 chooses
    refine ⟨j, Nat.lt_of_lt_of_le before reached, chosen, ?_⟩
    rw [leftover, leftAt_before _ _ before, found]

/-- The search of the configurations around the one at which the walk stops. -/
theorem leftover_searched {n : Nat} (below : k < n) :
    (∀ i < n, (∃ found, (leftover block heap k i).choose = .ok found) ∨
        ∃ j < i, ∃ chosen, (leftover block heap k j).choose = .ok (some chosen)) ↔
      (NothingSeen block heap k (block.configurationAt k) ∨ block.ChosenBefore k) ∧
        ∀ i, k < i → i < n → (heap.held i).bNumInterfaces = 0 ∨ block.ChosenBefore k := by
  have part : (∃ found, (leftover block heap k k).choose = .ok found) ↔
      NothingSeen block heap k (block.configurationAt k) := by
    rw [leftover, leftAt_same]
    rcases choose_inPart stopped with ⟨⟨e, failed⟩, seen⟩ | ⟨nothing, unseen⟩
    · exact iff_of_false (fun ⟨found, ran⟩ => by cases failed.symm.trans ran) seen
    · exact iff_of_true ⟨none, nothing⟩ unseen
  have rest {i : Nat} (behind : k < i) : (∃ found, (leftover block heap k i).choose = .ok found) ↔
      (heap.held i).bNumInterfaces = 0 := by
    rw [leftover, leftAt_behind _ _ behind]
    rcases choose_held heap i with ⟨⟨e, failed⟩, some⟩ | ⟨nothing, zero⟩
    · exact iff_of_false (fun ⟨found, ran⟩ => by cases failed.symm.trans ran) some
    · exact iff_of_true ⟨none, nothing⟩ zero
  constructor
  · intro all
    refine ⟨?_, fun i behind inside => ?_⟩
    · rw [← part, ← leftover_chosen complete stopped (Nat.le_refl k)]
      exact all k below
    · rw [← rest behind, ← leftover_chosen complete stopped (Nat.le_of_lt behind)]
      exact all i inside
  · rintro ⟨here, later⟩ i inside
    rcases Nat.lt_trichotomy i k with before | rfl | behind
    · rw [leftover, leftAt_before _ _ before]
      obtain ⟨found, chosen, -⟩ := choose_parsed (complete i before).announces heap i
      exact .inl ⟨found, chosen⟩
    · rw [part, leftover_chosen complete stopped (Nat.le_refl i)]
      exact here
    · rw [rest behind, leftover_chosen complete stopped (Nat.le_of_lt behind)]
      exact later i behind inside

/-- The freeing of the configurations around the one at which the walk stops. -/
theorem leftover_freed {n : Nat} (below : k < n) :
    (∀ i < n, (leftover block heap k i).free = .ok ()) ↔
      (∀ i < k, heap.Blank i) ∧ (heap.grants (.interfaces k) = true → heap.Blank k) ∧
        ∀ i, k < i → i < n → (heap.held i).interfaces = .null := by
  constructor
  · intro all
    refine ⟨fun i before => ?_, ?_, fun i behind inside => ?_⟩
    · rw [← free_parsed (complete i before).announces heap i]
      have freed := all i (Nat.lt_trans before below)
      rwa [leftover, leftAt_before _ _ before] at freed
    · rw [← free_inPart stopped]
      have freed := all k below
      rwa [leftover, leftAt_same] at freed
    · rw [← free_held heap i]
      have freed := all i inside
      rwa [leftover, leftAt_behind _ _ behind] at freed
  · rintro ⟨blank, part, rest⟩ i inside
    rcases Nat.lt_trichotomy i k with before | rfl | behind
    · rw [leftover, leftAt_before _ _ before]
      exact (free_parsed (complete i before).announces heap i).2 (blank i before)
    · rw [leftover, leftAt_same]
      exact (free_inPart stopped).2 part
    · rw [leftover, leftAt_behind _ _ behind]
      exact (free_held heap i).2 (rest i behind inside)

/-- With a walk that stops the device is served if the memory was blank where it matters. -/
theorem served_stopped {n : Nat} (below : k < n) :
    Served ((List.range n).map (leftover block heap k)) ↔
      (∀ i < k, heap.Blank i) ∧ Unused block heap k ∧
        ∀ i, k < i → i < n → Untouched block heap k i := by
  rw [served_range, leftover_searched complete stopped below,
    leftover_freed complete stopped below, unused_iff]
  constructor
  · rintro ⟨⟨seen, later⟩, blank, part, rest⟩
    exact ⟨blank, ⟨part, seen⟩, fun i behind inside =>
      ⟨rest i behind inside, later i behind inside⟩⟩
  · rintro ⟨blank, ⟨part, seen⟩, untouched⟩
    exact ⟨⟨seen, fun i behind inside => (untouched i behind inside).2⟩, blank, part,
      fun i behind inside => (untouched i behind inside).1⟩

end Stopped

/-- The walk does not stop at a complete configuration. -/
theorem Stopped.not_complete {i p : Nat} (stopped : Stopped block heap i p) :
    ¬ Complete block heap i p := by
  intro complete
  cases stopped with
  | noInterfaces refused _ => exact Bool.false_ne_true (refused.symm.trans complete.interfaces)
  | noEndpoints _ _ refused _ => exact Bool.false_ne_true (refused.symm.trans complete.endpoints)

/-- What is orderly is told at the first configuration that is not complete. -/
theorem orderly_iff {n k : Nat} (le : k ≤ n)
    (complete : ∀ i < k, Complete block heap i (block.configurationAt i))
    (first : k < n → ¬ Complete block heap k (block.configurationAt k)) :
    Orderly block heap n ↔ (∀ i < k, heap.Blank i) ∧
      (k = n ∨ Stopped block heap k (block.configurationAt k) ∧ Unused block heap k ∧
        ∀ i, k < i → i < n → Untouched block heap k i) := by
  constructor
  · rintro ⟨l, inside, each, rest⟩
    have same : l = k := by
      rcases Nat.lt_trichotomy l k with before | same | behind
      · rcases rest with rfl | ⟨stopped, -⟩
        · exact absurd le (Nat.not_le_of_lt before)
        · exact absurd (complete l before) stopped.not_complete
      · exact same
      · exact absurd (each k behind).1 (first (Nat.lt_of_lt_of_le behind inside))
    subst same
    exact ⟨fun i before => (each i before).2, rest⟩
  · rintro ⟨blank, rest⟩
    exact ⟨k, le, fun i before => ⟨complete i before, blank i before⟩, rest⟩

/-- The loop over the configurations, and what becomes of the array. -/
theorem configurations_served (n : Nat) :
    (∃ ucds next, fillFrom .writesOutside (configuration block heap) n 0
        ((List.range n).map heap.held) (block.configurationAt 0) = .ok (ucds, next) ∧
      Served ucds) ↔ Orderly block heap n := by
  have length : ((List.range n).map heap.held).length = n := by simp
  obtain ⟨k, le, complete, first⟩ := exists_first
    (fun i => Complete block heap i (block.configurationAt i)) n
  have moves : MovesOn (configuration block heap) (made block heap) block.configurationAt
      ((List.range n).map heap.held) k := fun i before ucd _ => by
    rw [configuration_complete (complete i before), ParamBlock.configurationAt_succ]
  have served {ucds : Nat → ConfigurationDesc} {next : Option Nat}
      (run : fillFrom .writesOutside (configuration block heap) n 0
        ((List.range n).map heap.held) (block.configurationAt 0) =
          .ok ((List.range n).map ucds, next)) :
      (∃ ucds next, fillFrom .writesOutside (configuration block heap) n 0
          ((List.range n).map heap.held) (block.configurationAt 0) = .ok (ucds, next) ∧
        Served ucds) ↔ Served ((List.range n).map ucds) := by
    refine ⟨?_, fun served => ⟨_, next, run, served⟩⟩
    rintro ⟨ucds', next', run', served⟩
    cases run.symm.trans run'
    exact served
  rw [orderly_iff le complete first]
  rcases Nat.eq_or_lt_of_le le with rfl | below
  · rw [and_iff_left (.inl rfl), ← served_complete complete]
    have whole : MovesOn (configuration block heap) (made block heap) block.configurationAt
        ((List.range k).map heap.held) ((List.range k).map heap.held).length := by
      rw [length]
      exact moves
    have all := @fillFrom_all _ _ Fault.writesOutside _ _ _ _ whole
    rw [length] at all
    exact served all
  by_cases stopped : Stopped block heap k (block.configurationAt k)
  · have left := @fillFrom_left _ _ Fault.writesOutside _ _ _ _ _ moves (length.symm ▸ below) _
      (configuration_stopped stopped _)
    rw [length, ← map_leftAt below] at left
    rw [served left, served_stopped complete stopped below,
      or_iff_right (Nat.ne_of_lt below), and_iff_right stopped]
  · obtain ⟨e, fails⟩ := configuration_fails (first below) stopped
      (((List.range n).map heap.held).get ⟨k, length.symm ▸ below⟩)
    have failed := @fillFrom_failed _ _ Fault.writesOutside _ _ _ _ _ moves (length.symm ▸ below) _
      fails
    rw [length] at failed
    refine iff_of_false ?_ ?_
    · rintro ⟨ucds, next, run, -⟩
      cases failed.symm.trans run
    · rintro ⟨-, rfl | ⟨stopped', -⟩⟩
      · exact Nat.lt_irrefl _ below
      · exact stopped stopped'

end Runs

/-! ## The call -/

section Calls

variable {call : Call} {stack : Bytes}

/-- The descriptors are searched and freed. -/
def Usable (udd : DevDesc) : Prop :=
  (∃ chosen, udd.choose = .ok chosen) ∧ freeDescriptors udd = .ok ()

/-- A call that returns is total if its descriptors can be used, or need not be. -/
theorem total_of_run {ret : Int} {udd : DevDesc}
    (run : getDescriptors call (DevDesc.read stack) = .ok (ret, udd)) :
    Total call stack ↔ (0 ≤ ret → Usable udd) := by
  refine ⟨?_, fun usable => ⟨ret, udd, run, usable⟩⟩
  rintro ⟨ret', udd', run', usable⟩
  cases run.symm.trans run'
  exact usable

/-- Descriptors with an array of configurations. -/
theorem usable_array {udd : DevDesc} {ucds : List ConfigurationDesc}
    (array : udd.configurations = .array ucds)
    (length : ucds.length = udd.bNumConfigurations.toNat) : Usable udd ↔ Served ucds := by
  rw [Usable, DevDesc.choose, freeDescriptors, array, Served]
  dsimp only
  rw [Pointer.entries_array length]
  refine and_congr Iff.rfl ?_
  dsimp only [bind, Except.bind]
  cases ucds.forM ConfigurationDesc.free with
  | error e => exact iff_of_false (fun ran => by cases ran) fun ran => by cases ran
  | ok _ => exact iff_of_true rfl rfl

/-- Descriptors whose pointer was found in memory. -/
theorem usable_ofWord {udd : DevDesc} {word : UInt32} (found : udd.configurations = .ofWord word) :
    Usable udd ↔ udd.bNumConfigurations = 0 ∧ udd.configurations = .null := by
  rw [Usable, DevDesc.choose, freeDescriptors]
  by_cases zero : udd.bNumConfigurations = 0
  case neg =>
    rw [found, Pointer.entries_ofWord _ zero]
    exact iff_of_false (fun ⟨⟨chosen, ran⟩, _⟩ => by cases ran) fun both => zero both.1
  rw [zero, Pointer.entries_zero, and_iff_right rfl, found]
  refine (and_iff_right ⟨none, rfl⟩).trans ?_
  rcases @Pointer.ofWord_cases ConfigurationDesc word with null | ⟨other, stale⟩
  · rw [null]
    exact iff_of_true rfl rfl
  · rw [stale]
    refine iff_of_false (fun ran => ?_) fun same => by cases same
    dsimp only at ran
    rw [Pointer.entries_zero] at ran
    cases ran

/-- The call with its buffers, for parameters that are read. -/
theorem getDescriptors_read (found : ¬ call.found < 0)
    (buffers : ¬ call.Refused)
    (served : call.ret = 0) (udd : DevDesc) :
    getDescriptors call udd =
      match call.heap.alloc .configurations call.block.udd.bNumConfigurations configurationSize
        ConfigurationDesc.read with
      | .array ucds =>
        fillFrom .writesOutside (configuration call.block call.heap)
          call.block.udd.bNumConfigurations.toNat 0 ucds (call.block.configurationAt 0) >>=
            fun (ucds, _) => .ok (0, { call.block.udd with configurations := .array ucds })
      | failed => .ok (0, { call.block.udd with configurations := failed }) := by
  rw [getDescriptors, if_neg found, if_neg buffers, if_neg (not_not.2 served)]
  dsimp only
  rw [fetch_inside (by decide)]
  rfl

/-- The parameters are read, and there is memory for the configurations. -/
theorem total_granted (found : ¬ call.found < 0)
    (buffers : ¬ call.Refused)
    (served : call.ret = 0) (granted : call.heap.grants .configurations = true) :
    Total call stack ↔
      Orderly call.block call.heap call.block.udd.bNumConfigurations.toNat := by
  have run : getDescriptors call (DevDesc.read stack) =
      (fillFrom .writesOutside (configuration call.block call.heap)
        call.block.udd.bNumConfigurations.toNat 0
        ((List.range call.block.udd.bNumConfigurations.toNat).map call.heap.held)
        (call.block.configurationAt 0) >>= fun (ucds, _) =>
          Except.ok ((0 : Int), { call.block.udd with configurations := .array ucds })) := by
    rw [getDescriptors_read found buffers served, Heap.alloc_granted granted]
    rfl
  rw [← configurations_served]
  cases filled : fillFrom .writesOutside (configuration call.block call.heap)
      call.block.udd.bNumConfigurations.toNat 0
      ((List.range call.block.udd.bNumConfigurations.toNat).map call.heap.held)
      (call.block.configurationAt 0) with
  | error e =>
    rw [filled] at run
    refine iff_of_false ?_ ?_
    · rintro ⟨ret, udd, run', -⟩
      cases run.symm.trans run'
    · rintro ⟨ucds, next, filled', -⟩
      cases filled'
  | ok result =>
    obtain ⟨ucds, next⟩ := result
    rw [filled] at run
    have length : ucds.length = call.block.udd.bNumConfigurations.toNat :=
      (fillFrom_length filled).trans (by rw [List.length_map, List.length_range])
    have usable : Usable { call.block.udd with configurations := .array ucds } ↔ Served ucds :=
      usable_array rfl length
    rw [total_of_run run, imp_iff_right (Int.le_refl 0), usable]
    refine ⟨fun served => ⟨ucds, next, rfl, served⟩, ?_⟩
    rintro ⟨ucds', next', same, served⟩
    cases same
    exact served

/-- Without memory for the configurations the device must announce none of them. -/
theorem total_refused (found : ¬ call.found < 0)
    (buffers : ¬ call.Refused)
    (served : call.ret = 0) (refused : call.heap.grants .configurations = false) :
    Total call stack ↔ call.block.udd.bNumConfigurations = 0 := by
  have run : getDescriptors call (DevDesc.read stack) =
      .ok (0, { call.block.udd with configurations := .null }) := by
    rw [getDescriptors_read found buffers served, Heap.alloc_refused refused]
  rw [total_of_run run, imp_iff_right (Int.le_refl 0), @usable_ofWord _ 0 rfl,
    and_iff_left rfl]

end Calls

/-- A device without configurations is orderly. -/
theorem orderly_zero (block : ParamBlock) (heap : Heap) : Orderly block heap 0 :=
  ⟨0, Nat.le_refl 0, fun i below => absurd below i.not_lt_zero, .inl rfl⟩

/-- `USB_GetDescriptors` is safe for the block and the allocations of a call exactly if they are
sound. -/
theorem total_iff (call : Call) (stack : Bytes) : Total call stack ↔ Sound call stack := by
  rw [Sound]
  by_cases found : call.found < 0
  case pos =>
    refine iff_of_true ⟨ipcEinval, _, if_pos found, fun fine => ?_⟩ (.inl found)
    exact absurd fine (by decide)
  rw [or_iff_right found]
  by_cases buffers : call.Refused
  case pos =>
    have run : getDescriptors call (DevDesc.read stack) =
        .ok (call.found, DevDesc.read stack) := by
      rw [getDescriptors, if_neg found, if_pos buffers]
    rw [total_of_run run, imp_iff_right (Int.not_lt.1 found), usable_ofWord rfl, ← Vacant,
      and_iff_right buffers, or_iff_left fun other => other.1 buffers]
  rw [or_iff_right fun other => buffers other.1, and_iff_right buffers]
  by_cases served : call.ret = 0
  case neg =>
    have run : getDescriptors call (DevDesc.read stack) = .ok (call.ret, DevDesc.read stack) := by
      rw [getDescriptors, if_neg found, if_neg buffers, if_pos served]
    rw [total_of_run run]
    rcases Int.lt_or_gt_of_ne served with failed | positive
    · exact iff_of_true (fun fine => absurd failed (Int.not_lt.2 fine)) (.inl failed)
    · rw [imp_iff_right (Int.le_of_lt positive), usable_ofWord rfl, or_iff_right
        (Int.lt_asymm positive), and_iff_right positive, or_iff_left fun other => served other.1,
        Vacant]
  rw [or_iff_right (served ▸ Int.lt_irrefl 0), or_iff_right fun other =>
    absurd other.1 (served ▸ Int.lt_irrefl 0), and_iff_right served]
  cases granted : call.heap.grants .configurations with
  | false =>
    rw [total_refused found buffers served granted]
    exact (or_iff_left fun other => Bool.false_ne_true other.1).symm
  | true =>
    rw [total_granted found buffers served granted, and_iff_right rfl]
    refine (or_iff_right_of_imp fun none => ?_).symm
    rw [none]
    exact orderly_zero _ _

/-! ## A device that announces too much -/

/-- One configuration, with one interface of 255 bytes that has an endpoint. -/
def overlong : ParamBlock := fun i =>
  match i.val with
  | 20 => 18
  | 21 => 1
  | 37 => 1
  | 40 => 9
  | 41 => 2
  | 44 => 1
  | 52 => 255
  | 53 => 4
  | 56 => 1
  | _ => 0

/-- The call for it, with a heap that grants everything and whose memory is blank. -/
def overlongCall : Call where
  found := 0
  heap := ⟨fun _ => true, fun _ _ => 0⟩
  ret := 0
  block := overlong

/-- The endpoint is read behind the block. -/
theorem overlong_not_total : ¬ Total overlongCall fun _ => 0 := by
  have run : getDescriptors overlongCall (DevDesc.read fun _ => 0) = .error .readsOutside := rfl
  rintro ⟨ret, udd, run', -⟩
  cases run.symm.trans run'

end D2xCios.UsbStorage
