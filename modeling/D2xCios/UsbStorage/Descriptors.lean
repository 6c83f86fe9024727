import D2xCios.CiosLib.Results
import D2xCios.Lib.Filling
import Mathlib.Data.UInt
import Mathlib.Logic.Function.Iterate

/-!
# Descriptors of a USB device

`USB_GetDescriptors` and `USB_FreeDescriptors` of `usb2.c`, and the search of
`USBStorage_Open` between them. The parameters of a device are a block of 192 bytes; the
cursor in it is moved by lengths that the device announces, in loops whose counts it
announces too. Memory that is allocated is not cleared, and `extra` is never set.
-/

namespace D2xCios.UsbStorage

open D2xCios.Lib

/-- What a run may not do. -/
inductive Fault where
  | readsOutside
  | writesOutside
  | wildPointer
  deriving DecidableEq

/-- The bytes from an address on. -/
abbrev Bytes := Nat → UInt8

/-- The bytes from `i` on. -/
def Bytes.drop (b : Bytes) (i : Nat) : Bytes := fun j => b (i + j)

def Bytes.u16 (b : Bytes) (i : Nat) : UInt16 := (b i).toUInt16 <<< 8 ||| (b (i + 1)).toUInt16

def Bytes.u32 (b : Bytes) (i : Nat) : UInt32 :=
  (b.u16 i).toUInt32 <<< 16 ||| (b.u16 (i + 2)).toUInt32

/-- A pointer: `NULL`, a word that is not from an allocation of the call, or an array that is. -/
inductive Pointer (α : Type) where
  | null
  | stale (word : UInt32)
  | array (entries : List α)

/-- A word of memory that the call has not written. -/
def Pointer.ofWord {α : Type} (word : UInt32) : Pointer α :=
  if word = 0 then .null else .stale word

/-! ## The descriptors -/

/-- `usb_endpointdesc` -/
structure EndpointDesc where
  bLength : UInt8
  bDescriptorType : UInt8
  bEndpointAddress : UInt8
  bmAttributes : UInt8
  wMaxPacketSize : UInt16
  bInterval : UInt8

/-- `usb_interfacedesc` -/
structure InterfaceDesc where
  bLength : UInt8
  bDescriptorType : UInt8
  bInterfaceNumber : UInt8
  bAlternateSetting : UInt8
  bNumEndpoints : UInt8
  bInterfaceClass : UInt8
  bInterfaceSubClass : UInt8
  bInterfaceProtocol : UInt8
  iInterface : UInt8
  extra : Pointer UInt8
  extraSize : UInt8
  endpoints : Pointer EndpointDesc

/-- `usb_configurationdesc` -/
structure ConfigurationDesc where
  bLength : UInt8
  bDescriptorType : UInt8
  wTotalLength : UInt16
  bNumInterfaces : UInt8
  bConfigurationValue : UInt8
  iConfiguration : UInt8
  bmAttributes : UInt8
  bMaxPower : UInt8
  interfaces : Pointer InterfaceDesc

/-- `usb_devdesc` -/
structure DevDesc where
  bLength : UInt8
  bDescriptorType : UInt8
  bcdUSB : UInt16
  bDeviceClass : UInt8
  bDeviceSubClass : UInt8
  bDeviceProtocol : UInt8
  bMaxPacketSize0 : UInt8
  idVendor : UInt16
  idProduct : UInt16
  bcdDevice : UInt16
  iManufacturer : UInt8
  iProduct : UInt8
  iSerialNumber : UInt8
  bNumConfigurations : UInt8
  configurations : Pointer ConfigurationDesc

/-- The sizes of the structures: they are packed. -/
def endpointSize : Nat := 7
def interfaceSize : Nat := 18
def configurationSize : Nat := 13
def devSize : Nat := 22

/-- `USB_DT_CONFIG_SIZE`, `USB_DT_INTERFACE_SIZE` and `USB_DT_ENDPOINT_SIZE`. -/
def usbDtConfigSize : Nat := 9
def usbDtInterfaceSize : Nat := 9
def usbDtEndpointSize : Nat := 7

/-- The structures in memory. -/
def EndpointDesc.read (b : Bytes) : EndpointDesc :=
  ⟨b 0, b 1, b 2, b 3, b.u16 4, b 6⟩

def InterfaceDesc.read (b : Bytes) : InterfaceDesc :=
  ⟨b 0, b 1, b 2, b 3, b 4, b 5, b 6, b 7, b 8, .ofWord (b.u32 9), b 13, .ofWord (b.u32 14)⟩

def ConfigurationDesc.read (b : Bytes) : ConfigurationDesc :=
  ⟨b 0, b 1, b.u16 2, b 4, b 5, b 6, b 7, b 8, .ofWord (b.u32 9)⟩

def DevDesc.read (b : Bytes) : DevDesc :=
  ⟨b 0, b 1, b.u16 2, b 4, b 5, b 6, b 7, b.u16 8, b.u16 10, b.u16 12, b 14, b 15, b 16, b 17,
    .ofWord (b.u32 18)⟩

/-- `memcpy` of the first nine bytes: what the call sets itself lies behind. -/
def InterfaceDesc.copy (uid : InterfaceDesc) (b : Bytes) : InterfaceDesc :=
  { InterfaceDesc.read b with
    extra := uid.extra, extraSize := uid.extraSize, endpoints := uid.endpoints }

def ConfigurationDesc.copy (ucd : ConfigurationDesc) (b : Bytes) : ConfigurationDesc :=
  { ConfigurationDesc.read b with interfaces := ucd.interfaces }

/-! ## USB_GetDescriptors -/

/-- The calls of `Mem_Alloc`. -/
inductive Allocation where
  | iobuf
  | buffer
  | configurations
  | interfaces (iConf : Nat)
  | endpoints (iConf : Nat)
  deriving DecidableEq

/-- The heap: which allocations it grants, and what the memory of each holds. -/
structure Heap where
  grants : Allocation → Bool
  leaves : Allocation → Bytes

/-- `Mem_Alloc` of `count` structures. -/
def Heap.alloc {α : Type} (heap : Heap) (allocation : Allocation) (count : UInt8) (size : Nat)
    (read : Bytes → α) : Pointer α :=
  if heap.grants allocation then
    .array ((List.range count.toNat).map fun i => read ((heap.leaves allocation).drop (i * size)))
  else .null

/-- The size of `buffer`. -/
def blockSize : Nat := 0xC0

/-- The parameters of a device. -/
abbrev ParamBlock := Fin blockSize → UInt8

/-- Its bytes; none behind its end is ever read. -/
def ParamBlock.bytes (block : ParamBlock) : Bytes := fun i =>
  if inside : i < blockSize then block ⟨i, inside⟩ else 0

/-- Reads `count` bytes at `next`. -/
def fetch (block : ParamBlock) (next count : Nat) : Except Fault Bytes :=
  if next + count ≤ blockSize then .ok (block.bytes.drop next) else .error .readsOutside

/-- `(bLength + 3) & ~3` -/
def padded (bLength : Nat) : Nat := (bLength + 3) / 4 * 4

/-- One endpoint. -/
def endpoint (block : ParamBlock) (_iEndpoint : Nat) (_ued : EndpointDesc) (next : Nat) :
    Except Fault (EndpointDesc × Option Nat) := do
  let bytes ← fetch block next usbDtEndpointSize
  let ued := EndpointDesc.read bytes
  .ok (ued, some (next + padded ued.bLength.toNat))

/-- The interface of a configuration, the first entry of `interfaces`. -/
def interface (block : ParamBlock) (heap : Heap) (iConf : Nat) (interfaces : List InterfaceDesc)
    (next : Nat) : Except Fault (List InterfaceDesc × Option Nat) := do
  let bytes ← fetch block next usbDtInterfaceSize
  match interfaces with
  | [] => .error .writesOutside
  | uid :: others =>
    let uid := uid.copy bytes
    let next := next + padded uid.bLength.toNat
    match heap.alloc (.endpoints iConf) uid.bNumEndpoints endpointSize EndpointDesc.read with
    | .array ueds =>
      let cleared := ueds.map fun _ => EndpointDesc.read fun _ => 0
      let (ueds, next) ←
        fillFrom .writesOutside (endpoint block) uid.bNumEndpoints.toNat 0 cleared next
      .ok ({ uid with endpoints := .array ueds } :: others, next)
    | failed => .ok ({ uid with endpoints := failed } :: others, none)

/-- One configuration. At most one interface is taken of it. -/
def configuration (block : ParamBlock) (heap : Heap) (iConf : Nat) (ucd : ConfigurationDesc)
    (next : Nat) : Except Fault (ConfigurationDesc × Option Nat) := do
  let bytes ← fetch block next usbDtConfigSize
  let ucd := ucd.copy bytes
  let next := next + padded usbDtConfigSize
  let ucd := if ucd.bNumInterfaces ≠ 0 then { ucd with bNumInterfaces := 1 } else ucd
  match heap.alloc (.interfaces iConf) ucd.bNumInterfaces interfaceSize InterfaceDesc.read with
  | .array uids =>
    let (uids, next) ← interface block heap iConf uids next
    .ok ({ ucd with interfaces := .array uids }, next)
  | failed => .ok ({ ucd with interfaces := failed }, none)

/-- What a call meets: the result of `__USB_FindDevice`, the heap, and the result and the output of
`USBV5_IOCTL_GETDEVPARAMS`. -/
structure Call where
  found : Int
  heap : Heap
  ret : Int
  block : ParamBlock

/-- There is no memory for the buffers of the ioctl. -/
def Call.Refused (call : Call) : Prop :=
  call.heap.grants .iobuf = false ∨ call.heap.grants .buffer = false

instance (call : Call) : Decidable call.Refused := instDecidableOr

/-- `USB_GetDescriptors`. Where it is left before the ioctl, `ret` is still the index that
`__USB_FindDevice` gave, and where the loop is left it is the 0 of the ioctl. -/
def getDescriptors (call : Call) (udd : DevDesc) : Except Fault (Int × DevDesc) := do
  if call.found < 0 then .ok (ipcEinval, udd)
  else if call.Refused then .ok (call.found, udd)
  else if call.ret ≠ 0 then .ok (call.ret, udd)
  else
    let next := 20
    let bytes ← fetch call.block next devSize
    let udd := DevDesc.read bytes
    match call.heap.alloc .configurations udd.bNumConfigurations configurationSize
        ConfigurationDesc.read with
    | .array ucds =>
      let next := next + padded udd.bLength.toNat
      let (ucds, _) ← fillFrom .writesOutside (configuration call.block call.heap)
        udd.bNumConfigurations.toNat 0 ucds next
      .ok (0, { udd with configurations := .array ucds })
    | failed => .ok (0, { udd with configurations := failed })

/-! ## The descriptors in use -/

/-- The entries that a loop up to an announced count goes through: if there are any, the pointer has
to be of an array with as many. -/
def Pointer.entries {α : Type} (p : Pointer α) (announced : UInt8) : Except Fault (List α) :=
  if announced = 0 then .ok []
  else
    match p with
    | .array xs => if xs.length = announced.toNat then .ok xs else .error .wildPointer
    | _ => .error .wildPointer

/-- `Mem_Free`, of a pointer that may be `NULL`. -/
def Pointer.free {α : Type} : Pointer α → Except Fault Unit
  | .stale _ => .error .wildPointer
  | _ => .ok ()

def usbClassMassStorage : UInt8 := 0x08
def massStorageScsiCommands : UInt8 := 0x06
def massStorageBulkOnly : UInt8 := 0x50
def usbEndpointBulk : UInt8 := 0x02
def usbEndpointIn : UInt8 := 0x80

/-- What `USBStorage_Open` takes from the descriptors. -/
structure Chosen where
  epIn : UInt8
  epOut : UInt8
  configuration : UInt8
  interface : UInt8
  altInterface : UInt8

def InterfaceDesc.isMassStorage (uid : InterfaceDesc) : Bool :=
  uid.bInterfaceClass = usbClassMassStorage ∧ uid.bInterfaceSubClass = massStorageScsiCommands ∧
    uid.bInterfaceProtocol = massStorageBulkOnly

/-- The last bulk endpoints of each direction. -/
def bulkEndpoints (ueds : List EndpointDesc) : UInt8 × UInt8 :=
  ueds.foldl (fun (epIn, epOut) ued =>
    if ued.bmAttributes ≠ usbEndpointBulk then (epIn, epOut)
    else if ued.bEndpointAddress &&& usbEndpointIn ≠ 0 then (ued.bEndpointAddress, epOut)
    else (epIn, ued.bEndpointAddress)) (0, 0)

/-- The endpoints of an interface that can be used. -/
def InterfaceDesc.choose (uid : InterfaceDesc) : Except Fault (Option (UInt8 × UInt8)) := do
  if uid.isMassStorage then
    if uid.bNumEndpoints < 2 then .ok none
    else
      let ueds ← uid.endpoints.entries uid.bNumEndpoints
      let (epIn, epOut) := bulkEndpoints ueds
      if epIn ≠ 0 ∧ epOut ≠ 0 then .ok (some (epIn, epOut)) else .ok none
  else .ok none

/-- The search in a configuration. -/
def ConfigurationDesc.choose (ucd : ConfigurationDesc) : Except Fault (Option Chosen) := do
  let uids ← ucd.interfaces.entries ucd.bNumInterfaces
  uids.findSomeM? fun uid => do
    match ← uid.choose with
    | none => .ok none
    | some (epIn, epOut) =>
      .ok (some ⟨epIn, epOut, ucd.bConfigurationValue, uid.bInterfaceNumber, uid.bAlternateSetting⟩)

/-- The search of `USBStorage_Open`. -/
def DevDesc.choose (udd : DevDesc) : Except Fault (Option Chosen) := do
  let ucds ← udd.configurations.entries udd.bNumConfigurations
  ucds.findSomeM? ConfigurationDesc.choose

/-- The inner loop of `USB_FreeDescriptors`. -/
def InterfaceDesc.free (uid : InterfaceDesc) : Except Fault Unit := do
  uid.endpoints.free
  uid.extra.free

def ConfigurationDesc.free (ucd : ConfigurationDesc) : Except Fault Unit :=
  match ucd.interfaces with
  | .null => .ok ()
  | interfaces => do
    let uids ← interfaces.entries ucd.bNumInterfaces
    uids.forM InterfaceDesc.free
    interfaces.free

/-- `USB_FreeDescriptors` -/
def freeDescriptors (udd : DevDesc) : Except Fault Unit :=
  match udd.configurations with
  | .null => .ok ()
  | configurations => do
    let ucds ← configurations.entries udd.bNumConfigurations
    ucds.forM ConfigurationDesc.free
    configurations.free

/-- The call keeps to the block and to the arrays it allocates, and if it succeeds, the search and
`USB_FreeDescriptors` find every array they go through, and free only what it has allocated. -/
def Total (call : Call) (stack : Bytes) : Prop :=
  ∃ ret udd, getDescriptors call (DevDesc.read stack) = .ok (ret, udd) ∧
    (0 ≤ ret → (∃ chosen, udd.choose = .ok chosen) ∧ freeDescriptors udd = .ok ())

end D2xCios.UsbStorage
