import D2xCios.CiosLib.Overlaps
import D2xCios.CiosLib.Results
import D2xCios.Lib.Runs
import D2xCios.Mload.Loading

/-!
# The device

The message loop of `main.c`. A message is a command and four words, which the commands take for
fields of their own: a read and a write have their buffer and their length where a seek has its
offset and its origin. The cases of a read and of a write are not ended by a `break`.
-/

namespace D2xCios.Mload

open D2xCios.CiosLib D2xCios.Lib

/-- `ipcmessage`: the command, and the words of the union. -/
structure IpcMessage where
  command : Word
  word0 : Word
  word1 : Word
  word2 : Word
  word3 : Word

namespace IpcMessage

variable (message : IpcMessage)

/-- `message->open` -/
def openDevice : Word := message.word0
def openResultfd : Word := message.word2

/-- `message->read` and `message->write` -/
def data : Word := message.word0
def length : Word := message.word1

/-- `message->seek` -/
def seekOffset : Word := message.word0
def seekOrigin : Word := message.word1

/-- `message->ioctlv` -/
def ioctlvCommand : Word := message.word0
def ioctlvVector : Word := message.word3

end IpcMessage

/-- The commands of `ipc.h`. -/
def iosOpen : Word := 1
def iosClose : Word := 2
def iosRead : Word := 3
def iosWrite : Word := 4
def iosSeek : Word := 5
def iosIoctlv : Word := 7

/-- `DEVICE_NAME` -/
def deviceName : List Byte := [0x2F, 0x64, 0x65, 0x76, 0x2F, 0x6D, 0x6C, 0x6F, 0x61, 0x64]

/-- The system calls for threads. -/
inductive ThreadCall where
  | create (start arg stack stacksize priority : Word)
  | resume (tid : Word)
  | stop (tid : Word)

/-- The module: the memory, the cursor `offset`, `elf`, what the other commands set, and the system
calls that have been made. -/
structure Device where
  bus : Bus
  offset : Word
  elf : ElfData
  stealthMode : Word
  runningTitle : Word
  debugMode : Byte
  calls : List ThreadCall

/-- What is given to the module: where `ios` and `exe_mem` are, and what a system call returns after
those that have been made. -/
structure Port where
  iosInfo : Word
  exeMem : Word
  exeMemSize : Word
  returns : List ThreadCall → ThreadCall → Word

/-- The commands of `__MLoad_Ioctlv`. -/
inductive Command where
  | getIosInfo
  | getMloadVersion
  | getLoadBase
  | loadElf
  | runElf
  | runThread
  | stopThread
  | continueThread
  | memset
  | setLogMode
  | getLogBuffer
  | setStealthMode
  | unknown

/-- The case of `__MLoad_Ioctlv` for a code. -/
def Command.ofWord (code : Word) : Command :=
  if code = 0x4D4C4401 then .getIosInfo
  else if code = 0x4D4C4402 then .getMloadVersion
  else if code = 0x4D4C4490 then .getLoadBase
  else if code = 0x4D4C4480 then .loadElf
  else if code = 0x4D4C4481 then .runElf
  else if code = 0x4D4C4482 then .runThread
  else if code = 0x4D4C4484 then .stopThread
  else if code = 0x4D4C4485 then .continueThread
  else if code = 0x4D4C4491 then .memset
  else if code = 0x4D4C44D0 then .setLogMode
  else if code = 0x4D4C44D1 then .getLogBuffer
  else if code = 0x4D4C44E0 then .setStealthMode
  else .unknown

section Handlers

variable (port : Port)

/-- A system call. -/
def threadCall (call : ThreadCall) (s : Device) : Word × Device :=
  (port.returns s.calls call, { s with calls := s.calls ++ [call] })

/-- `Elf_RunThread` -/
def elfRunThread (start arg stack stacksize priority : Word) (s : Device) : Word × Device :=
  let (ret, s) := threadCall port (.create start arg stack stacksize priority) s
  if 0 ≤ ret.toInt then (ret, (threadCall port (.resume ret) s).2) else (ret, s)

/-- `Elf_Run` -/
def elfRun (s : Device) : Word × Device :=
  elfRunThread port s.elf.start 0 s.elf.stack s.elf.sizeStack s.elf.prio s

/-- `Debug_SetMode` -/
def debugSetMode (mode : Byte) (s : Device) : Word × Device :=
  if mode = 0 ∨ mode = 2 then (0, { s with debugMode := mode }) else (-1, s)

/-- `vector[i].data`, and the word it points to. -/
def vectorData (mem : Space 32 Byte) (vector : Word) (i : Nat) : Word :=
  wordAt mem (ahead vector (8 * i))

def vectorWord (mem : Space 32 Byte) (vector : Word) (i : Nat) : Word :=
  wordAt mem (vectorData mem vector i)

/-- `__MLoad_Ioctlv`: the result and the module, or nothing if `Elf_Load` does not end. -/
def mloadIoctlv (cmd vector : Word) (s : Device) : Option (Word × Device) :=
  let data := vectorData s.bus.mem vector
  let word := vectorWord s.bus.mem vector
  match Command.ofWord cmd with
  | .getIosInfo => some (0, { s with bus := (memcpy (data 0) port.iosInfo 20 s.bus).2 })
  | .getMloadVersion => some (16, s)
  | .getLoadBase =>
    some (0,
      { s with bus := (s.bus.store32 (data 0) port.exeMem).store32 (data 1) port.exeMemSize })
  | .loadElf => (elfLoad (data 0) s.bus s.elf).map fun (ret, bus, elf) =>
      (BitVec.ofInt 32 ret, { s with bus := bus, elf := elf })
  | .runElf => some (elfRun port s)
  | .runThread => some (elfRunThread port (word 0) 0 (word 1) (word 2) (word 3) s)
  | .stopThread => some (threadCall port (.stop (word 0)) s)
  | .continueThread => some (threadCall port (.resume (word 0)) s)
  | .memset => some (0, { s with bus := (memset (word 0) (word 1) (word 2).toNat s.bus).2 })
  | .setLogMode => some (debugSetMode ((word 0).setWidth 8) s)
  | .getLogBuffer => some (0, s)
  | .setStealthMode => some (0, { s with stealthMode := word 0 })
  | .unknown => some (.ofInt 32 ipcEnoent, s)

/-- `Swi_Memcpy` and `Swi_uMemcpy`, which differ in the cache only. -/
def swiMemcpy (dst src len : Word) (bus : Bus) : Bus :=
  if len.toInt ≤ 0 then bus else (memcpy dst src len.toNat bus).2

/-- `IOS_OPEN` -/
def openCase (message : IpcMessage) (s : Device) : Word :=
  if s.stealthMode ≠ 0 ∧ s.runningTitle ≠ 0 then .ofInt 32 ipcEnoent
  else if s.bus.mem.get message.openDevice (deviceName.length + 1) = deviceName ++ [0] then
    message.openResultfd
  else .ofInt 32 ipcEnoent

/-- `IOS_SEEK` -/
def seekCase (message : IpcMessage) (s : Device) : Word × Device :=
  let whence := message.seekOrigin
  let wher := message.seekOffset
  let offset :=
    if whence = 0 then wher
    else if whence = 1 then s.offset + wher
    else if whence = 2 then -wher
    else s.offset
  (offset, { s with offset := offset })

/-- `IOS_WRITE`, with the case behind it. -/
def writeCase (message : IpcMessage) (s : Device) : Word × Device :=
  let dst := s.offset
  let src := message.data
  let len := message.length
  seekCase message { s with bus := swiMemcpy dst src len s.bus, offset := s.offset + len }

/-- `IOS_READ`, with the cases behind it. -/
def readCase (message : IpcMessage) (s : Device) : Word × Device :=
  let dst := message.data
  let src := s.offset
  let len := message.length
  writeCase message { s with bus := swiMemcpy dst src len s.bus, offset := s.offset + len }

/-- One message: what it is acknowledged with, and the module. -/
def handle (message : IpcMessage) (s : Device) : Option (Word × Device) :=
  if message.command = iosOpen then some (openCase message s, s)
  else if message.command = iosClose then some (0, s)
  else if message.command = iosRead then some (readCase message s)
  else if message.command = iosWrite then some (writeCase message s)
  else if message.command = iosSeek then some (seekCase message s)
  else if message.command = iosIoctlv then
    mloadIoctlv port message.ioctlvCommand message.ioctlvVector s
  else some (.ofInt 32 ipcEinval, s)

end Handlers

/-! ## A file over memory -/

/-- Where a seek takes the cursor. `fromEnd` says where `SEEK_END` does: back from the end of the
address space, or on from it. -/
def sought (fromEnd : Word → Word) (message : IpcMessage) (cursor : Word) : Word :=
  if message.seekOrigin = 0 then message.seekOffset
  else if message.seekOrigin = 1 then cursor + message.seekOffset
  else if message.seekOrigin = 2 then fromEnd message.seekOffset
  else cursor

/-- What a message does to a file over memory with one cursor. -/
structure Behaves (fromEnd : Word → Word) (message : IpcMessage) (s s' : Device) : Prop where
  read : message.command = iosRead →
    s'.bus.mem = s.bus.mem.move message.data s.offset message.length.toNat ∧
      s'.offset = s.offset + message.length
  write : message.command = iosWrite →
    s'.bus.mem = s.bus.mem.move s.offset message.data message.length.toNat ∧
      s'.offset = s.offset + message.length
  seek : message.command = iosSeek → s' = { s with offset := sought fromEnd message s.offset }
  others : message.command ≠ iosRead → message.command ≠ iosWrite → message.command ≠ iosSeek →
    s'.offset = s.offset

/-- The device does so. -/
def Meets (fromEnd : Word → Word) (port : Port) (message : IpcMessage) (s : Device) : Prop :=
  ∀ ret s', handle port message s = some (ret, s') → Behaves fromEnd message s s'

/-- The module behind a message. None is left when it does not come back from one. -/
def step (port : Port) (message : IpcMessage) (s : Option Device) : Option Device :=
  s.bind fun s => (handle port message s).map Prod.snd

/-- Something holds of a message, and of the module that receives it. -/
def WhileRuns (holds : IpcMessage → Device → Prop) (message : IpcMessage) (s : Option Device) :
    Prop :=
  ∀ running ∈ s, holds message running

/-- A run that arrives where it is copied to. If it is longer than an `s32` says nothing is copied,
and it has to be there already. -/
def Arrives (dst src len : Word) (mem : Space 32 Byte) : Prop :=
  if len.toInt ≤ 0 then mem.get dst len.toNat = mem.get src len.toNat
  else ∀ i < len.toNat, Kept mem dst src (memcpyPiece dst src len.toNat i) i

/-- Behind the run at the cursor is the same run again, once it has been copied to the buffer. -/
def Repeats (message : IpcMessage) (s : Device) : Prop :=
  (s.bus.mem.move message.data s.offset message.length.toNat).get (s.offset + message.length)
      message.length.toNat =
    s.bus.mem.get s.offset message.length.toNat

/-- A read that the cases behind it do not spoil. -/
def ReadSpared (message : IpcMessage) (s : Device) : Prop :=
  (message.length = 0 ∧ message.data = s.offset) ∨
    (message.length = 1 ∧ message.data = -1 ∧ Repeats message s) ∨
      (message.length = 2 ∧ message.data = -(s.offset + 2) ∧ Repeats message s)

/-- A write that the case behind it does not spoil. -/
structure WriteSpared (message : IpcMessage) (s : Device) : Prop where
  arrives : Arrives s.offset message.data message.length s.bus.mem
  set : message.length = 0 → message.data = s.offset
  cur : message.length = 1 → message.data = 0
  fin : message.length = 2 → message.data = -(s.offset + 2)

/-- A message that the device treats as a file would. -/
structure Spared (fromEnd : Word → Word) (message : IpcMessage) (s : Device) : Prop where
  read : message.command = iosRead → ReadSpared message s
  write : message.command = iosWrite → WriteSpared message s
  seek : message.command = iosSeek → message.seekOrigin = 2 →
    fromEnd message.seekOffset = -message.seekOffset

/-! ## What is copied -/

/-- Storing a run where it is, or where it already has been copied to. -/
theorem move_eq_self_iff (m : Space 32 Byte) (dest src : Word) {n : Nat} (room : n ≤ 2 ^ 32) :
    m.move dest src n = m ↔ m.get dest n = m.get src n := by
  constructor
  · intro same
    have stored := m.get_put_same dest (m.get src n) (by rwa [Space.get_length])
    rw [Space.get_length] at stored
    rw [Space.move] at same
    rwa [same] at stored
  · intro same
    rw [Space.move, ← same, Space.put_get]

/-- A copy moves its run exactly if it arrives. -/
theorem swiMemcpy_move_iff (dst src len : Word) (bus : Bus) :
    (swiMemcpy dst src len bus).mem = bus.mem.move dst src len.toNat ↔
      Arrives dst src len bus.mem := by
  have room : len.toNat ≤ 2 ^ 32 := Nat.le_of_lt len.isLt
  unfold swiMemcpy Arrives
  by_cases none : len.toInt ≤ 0
  · rw [if_pos none, if_pos none, eq_comm]
    exact move_eq_self_iff bus.mem dst src room
  · rw [if_neg none, if_neg none]
    exact memcpy_move_iff dst src bus room

/-- A run that is not too long, and does not go where a later part of it is, arrives. -/
theorem arrives_of_forward {dst src len : Word} (mem : Space 32 Byte) (short : len.toNat < 2 ^ 31)
    (forward : Forward dst src len.toNat) : Arrives dst src len mem := by
  unfold Arrives
  split
  case isTrue none =>
    have zero : len.toNat = 0 := by
      rw [BitVec.toInt_eq_toNat_of_lt (by omega)] at none
      omega
    rw [zero]
    rfl
  case isFalse => exact fun i i_lt => forward.kept mem i_lt (memcpyPiece_le _ _ _ _)

/-! ## Messages -/

/-- The commands of an ioctlv do not touch the cursor. -/
theorem mloadIoctlv_offset {port : Port} {cmd vector : Word} {s : Device} {ret : Word}
    {s' : Device} (run : mloadIoctlv port cmd vector s = some (ret, s')) :
    s'.offset = s.offset := by
  have thread : ∀ start arg stack stacksize priority,
      (elfRunThread port start arg stack stacksize priority s).2.offset = s.offset := by
    intro start arg stack stacksize priority
    unfold elfRunThread threadCall
    dsimp only
    split <;> rfl
  unfold mloadIoctlv at run
  cases code : Command.ofWord cmd with
  | loadElf =>
    rw [code] at run
    obtain ⟨result, -, same⟩ := Option.map_eq_some_iff.1 run
    exact (congrArg (·.2.offset) same).symm
  | setLogMode =>
    rw [code] at run
    have same := congrArg (·.2.offset) (Option.some.inj run)
    rw [← same]
    unfold debugSetMode
    split <;> rfl
  | runElf | runThread =>
    rw [code] at run
    exact (congrArg (·.2.offset) (Option.some.inj run)).symm.trans (thread ..)
  | _ =>
    rw [code] at run
    exact (congrArg (·.2.offset) (Option.some.inj run)).symm

/-- A seek sets the cursor, with `SEEK_END` counting back from the end of the address space. -/
theorem seekCase_state (message : IpcMessage) (s : Device) :
    (seekCase message s).2 = { s with offset := sought (fun o => -o) message s.offset } := rfl

/-- The fields of a read or a write, taken for those of a seek. -/
theorem sought_taken (message : IpcMessage) (cursor : Word) :
    sought (fun o => -o) message cursor =
      if message.length = 0 then message.data
      else if message.length = 1 then cursor + message.data
      else if message.length = 2 then -message.data
      else cursor := rfl

/-- Where the cursor is when a write has been taken for a seek. -/
theorem sought_write (message : IpcMessage) (cursor : Word) :
    sought (fun o => -o) message (cursor + message.length) = cursor + message.length ↔
      (message.length = 0 → message.data = cursor) ∧ (message.length = 1 → message.data = 0) ∧
        (message.length = 2 → message.data = -(cursor + 2)) := by
  rw [sought_taken]
  generalize message.length = length
  generalize message.data = data
  by_cases set : length = 0
  · subst set
    simp
  by_cases cur : length = 1
  · subst cur
    simp
  by_cases fin : length = 2
  · subst fin
    simp
    bv_omega
  · rw [if_neg set, if_neg cur, if_neg fin]
    exact iff_of_true rfl ⟨fun zero => absurd zero set, fun one => absurd one cur,
      fun two => absurd two fin⟩

/-- Where the cursor is when a read has been taken for a write and for a seek. -/
theorem sought_read (message : IpcMessage) (cursor : Word) :
    sought (fun o => -o) message (cursor + message.length + message.length) =
        cursor + message.length ↔
      (message.length = 0 ∧ message.data = cursor) ∨ (message.length = 1 ∧ message.data = -1) ∨
        (message.length = 2 ∧ message.data = -(cursor + 2)) := by
  rw [sought_taken]
  generalize message.length = length
  generalize message.data = data
  by_cases set : length = 0
  · subst set
    simp
  by_cases cur : length = 1
  · subst cur
    simp
    bv_omega
  by_cases fin : length = 2
  · subst fin
    simp
    bv_omega
  · rw [if_neg set, if_neg cur, if_neg fin]
    refine iff_of_false (fun twice => set ?_) ?_
    · bv_omega
    · rintro (⟨zero, -⟩ | ⟨one, -⟩ | ⟨two, -⟩)
      · exact set zero
      · exact cur one
      · exact fin two

/-- A run of one or two bytes arrives in the buffer, and from there behind the cursor, if the buffer
is where the cases behind a read need it. -/
theorem read_forward {cursor data length : Word}
    (place : (length = 0 ∧ data = cursor) ∨ (length = 1 ∧ data = -1) ∨
      (length = 2 ∧ data = -(cursor + 2))) :
    length.toNat < 2 ^ 31 ∧ Forward data cursor length.toNat ∧
      Forward (cursor + length) data length.toNat := by
  obtain ⟨rfl, -⟩ | ⟨rfl, -⟩ | ⟨rfl, place⟩ := place
  · exact ⟨by decide, fun i j _ j_lt => absurd j_lt j.not_lt_zero,
      fun i j _ j_lt => absurd j_lt j.not_lt_zero⟩
  · have one : (1 : Word).toNat = 1 := rfl
    rw [one]
    exact ⟨by decide, fun i j later j_lt => by omega, fun i j later j_lt => by omega⟩
  · have two : (2 : Word).toNat = 2 := rfl
    rw [two]
    refine ⟨by decide, ?_, ?_⟩
    all_goals
      intro i j later j_lt same
      obtain rfl : i = 0 := by omega
      obtain rfl : j = 1 := by omega
      -- one of the two addresses would be even and odd
      subst place
      simp only [ahead] at same
      bv_omega

/-- A read does what it should, with all that comes behind it. -/
theorem readCase_iff (message : IpcMessage) (s : Device) :
    ((readCase message s).2.bus.mem = s.bus.mem.move message.data s.offset message.length.toNat ∧
      (readCase message s).2.offset = s.offset + message.length) ↔ ReadSpared message s := by
  have offset : (readCase message s).2.offset =
      sought (fun o => -o) message (s.offset + message.length + message.length) := rfl
  have mem : (readCase message s).2.bus = swiMemcpy (s.offset + message.length) message.data
      message.length (swiMemcpy message.data s.offset message.length s.bus) := rfl
  rw [offset, sought_read, mem]
  -- the cursor says where the buffer is, and there both runs arrive
  have arrived : (message.length = 0 ∧ message.data = s.offset) ∨
      (message.length = 1 ∧ message.data = -1) ∨
        (message.length = 2 ∧ message.data = -(s.offset + 2)) →
      ((swiMemcpy (s.offset + message.length) message.data message.length
          (swiMemcpy message.data s.offset message.length s.bus)).mem =
        s.bus.mem.move message.data s.offset message.length.toNat ↔ Repeats message s) := by
    intro place
    obtain ⟨short, first, second⟩ := read_forward place
    have room := Nat.le_of_lt message.length.isLt
    have once := (swiMemcpy_move_iff _ _ _ s.bus).2 (arrives_of_forward _ short first)
    rw [(swiMemcpy_move_iff _ _ _ _).2 (arrives_of_forward _ short second), once,
      move_eq_self_iff _ _ _ room]
    have stored := s.bus.mem.get_put_same message.data
      (s.bus.mem.get s.offset message.length.toNat) (by rwa [Space.get_length])
    rw [Space.get_length] at stored
    rw [Repeats]
    exact ⟨fun same => same.trans stored, fun same => same.trans stored.symm⟩
  constructor
  · rintro ⟨same, place⟩
    have repeats := (arrived place).1 same
    exact place.imp id (Or.imp (fun one => ⟨one.1, one.2, repeats⟩) fun two =>
      ⟨two.1, two.2, repeats⟩)
  · intro spared
    have place := spared.imp id (Or.imp (fun one => And.intro one.1 one.2.1) fun two =>
      And.intro two.1 two.2.1)
    refine ⟨(arrived place).2 ?_, place⟩
    obtain ⟨zero, -⟩ | ⟨-, -, repeats⟩ | ⟨-, -, repeats⟩ := spared
    · rw [Repeats, zero]
      rfl
    · exact repeats
    · exact repeats

/-- A write does what it should, with what comes behind it. -/
theorem writeCase_iff (message : IpcMessage) (s : Device) :
    ((writeCase message s).2.bus.mem = s.bus.mem.move s.offset message.data message.length.toNat ∧
      (writeCase message s).2.offset = s.offset + message.length) ↔ WriteSpared message s := by
  have offset : (writeCase message s).2.offset =
      sought (fun o => -o) message (s.offset + message.length) := rfl
  have mem : (writeCase message s).2.bus =
      swiMemcpy s.offset message.data message.length s.bus := rfl
  rw [offset, sought_write, mem, swiMemcpy_move_iff]
  exact ⟨fun ⟨arrives, set, cur, fin⟩ => ⟨arrives, set, cur, fin⟩,
    fun spared => ⟨spared.arrives, spared.set, spared.cur, spared.fin⟩⟩

section Runs

variable (fromEnd : Word → Word) (port : Port)

/-- A read goes to its case. -/
theorem handle_read {message : IpcMessage} (command : message.command = iosRead) (s : Device) :
    handle port message s = some (readCase message s) := by
  rw [handle, command, if_neg (by decide), if_neg (by decide), if_pos rfl]

/-- A write goes to its case. -/
theorem handle_write {message : IpcMessage} (command : message.command = iosWrite) (s : Device) :
    handle port message s = some (writeCase message s) := by
  rw [handle, command, if_neg (by decide), if_neg (by decide), if_neg (by decide), if_pos rfl]

/-- A seek goes to its case. -/
theorem handle_seek {message : IpcMessage} (command : message.command = iosSeek) (s : Device) :
    handle port message s = some (seekCase message s) := by
  rw [handle, command, if_neg (by decide), if_neg (by decide), if_neg (by decide),
    if_neg (by decide), if_pos rfl]

/-- All other messages leave the cursor alone. -/
theorem handle_others {message : IpcMessage} {s : Device} (read : message.command ≠ iosRead)
    (write : message.command ≠ iosWrite) (seek : message.command ≠ iosSeek) {ret : Word}
    {s' : Device} (run : handle port message s = some (ret, s')) : s'.offset = s.offset := by
  unfold handle at run
  rw [if_neg read, if_neg write, if_neg seek] at run
  split_ifs at run
  case pos => exact (congrArg (·.2.offset) (Option.some.inj run)).symm
  case pos => exact (congrArg (·.2.offset) (Option.some.inj run)).symm
  case pos => exact mloadIoctlv_offset run
  case neg => exact (congrArg (·.2.offset) (Option.some.inj run)).symm

/-- One message. -/
theorem meets_iff (message : IpcMessage) (s : Device) :
    Meets fromEnd port message s ↔ Spared fromEnd message s := by
  constructor
  · intro meets
    refine ⟨fun command => ?_, fun command => ?_, fun command fin => ?_⟩
    · exact (readCase_iff message s).1 ((meets _ _ (handle_read port command s)).read command)
    · exact (writeCase_iff message s).1 ((meets _ _ (handle_write port command s)).write command)
    · have does := (meets _ _ (handle_seek port command s)).seek command
      have offset : sought (fun o => -o) message s.offset = sought fromEnd message s.offset :=
        congrArg Device.offset does
      rw [sought, sought, fin, if_neg (by decide), if_neg (by decide), if_pos rfl,
        if_neg (by decide), if_neg (by decide), if_pos rfl] at offset
      exact offset.symm
  · intro spared ret s' run
    refine ⟨fun command => ?_, fun command => ?_, fun command => ?_, fun read write seek =>
      handle_others port read write seek run⟩
    · rw [handle_read port command] at run
      have state : (readCase message s).2 = s' := congrArg Prod.snd (Option.some.inj run)
      rw [← state]
      exact (readCase_iff message s).2 (spared.read command)
    · rw [handle_write port command] at run
      have state : (writeCase message s).2 = s' := congrArg Prod.snd (Option.some.inj run)
      rw [← state]
      exact (writeCase_iff message s).2 (spared.write command)
    · rw [handle_seek port command] at run
      have state : (seekCase message s).2 = s' := congrArg Prod.snd (Option.some.inj run)
      rw [← state, seekCase_state]
      refine congrArg (fun offset => { s with offset := offset }) ?_
      unfold sought
      split_ifs with set cur fin
      · rfl
      · rfl
      · exact (spared.seek command fin).symm
      · rfl

/-- In a run the device is a file over memory exactly as long as it receives nothing but messages
that the missing ends of the cases spare, runs that arrive, and seeks from an end that is where the
module takes it to be. -/
theorem file_along_iff (messages : List IpcMessage) (s : Device) :
    Throughout (step port) (WhileRuns (Meets fromEnd port)) messages (some s) ↔
      Throughout (step port) (WhileRuns (Spared fromEnd)) messages (some s) := by
  refine Throughout.congr fun message s => ?_
  exact forall₂_congr fun running _ => meets_iff fromEnd port message running

end Runs

/-- A read of four bytes, in a module that has just been started, moves the cursor by eight. -/
theorem read_not_file : ¬ ∀ port messages s,
    Throughout (step port) (WhileRuns (Meets (fun o => -o) port)) messages (some s) := by
  intro always
  have first := (always ⟨0, 0, 0, fun _ _ => 0⟩ [⟨iosRead, 0x100, 4, 0, 0⟩]
    ⟨⟨fun _ => 0, []⟩, 0, .boot, 0, 0, 0, []⟩).1 _ rfl
  have offset := ((first _ _ (handle_read _ rfl _)).read rfl).2
  exact absurd offset (by decide)

end D2xCios.Mload
