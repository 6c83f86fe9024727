import D2xCios.Fat.Module
import D2xCios.Lib.Runs
import Mathlib.Logic.Function.Basic

/-!
# The volumes of the FAT module

Mounting as in `fat_wrapper.c` and `ff.c`: two volumes, the SD card and the USB
device, and a single file system object for both of them. FatFs goes to the disk
that the object stands for, and looks at the volume of a path only while the
object stands for none. The volumes are thus kept apart as long as a device is
mounted only while the other one is not.
-/

namespace D2xCios.Fat

open D2xCios.Ffs D2xCios.Lib

/-! ## Volumes and disks -/

/-- A volume, and the physical drive of the same number. -/
inductive Device where
  | sd
  | usb
  deriving DecidableEq

def Device.other : Device → Device
  | .sd => .usb
  | .usb => .sd

/-- The disks at the time of a call. -/
structure Media where
  /-- `sdio_Startup` and `usbstorage_Init`. -/
  startup : Device → Bool
  /-- The type of the FAT volume that FatFs finds on a partition, 0 if it finds none. -/
  fmt : Device → Nat → Nat
  /-- Whether the root directory of that volume can be opened. -/
  root : Device → Nat → Bool

/-- `FATFS`: the type of the volume, 0 if the object is not mounted, and what it stands for. `pt` is
the partition in which all the sector numbers of the object lie. `mount` counts the mounts up to
its own; the field `id` has the last 16 bits of it. -/
structure Fatfs where
  fsType : Nat
  drv : Device
  pt : Nat
  mount : Nat

/-- `id` -/
def Fatfs.id (fs : Fatfs) : UInt16 := UInt16.ofNat fs.mount

/-- The statics: `fatFs`, whether `FatFs` of a volume points to it, the partitions in `VolToPart`,
and `Fsid` before it is cut to 16 bits. -/
structure Volumes where
  fatFs : Fatfs
  registered : Device → Bool
  volToPart : Device → Nat
  fsid : Nat

/-- The statics of a module just loaded. -/
def Volumes.boot : Volumes where
  fatFs := ⟨0, .sd, 0, 0⟩
  registered _ := false
  volToPart _ := 4
  fsid := 0

/-- `fs_type = 0` -/
def Volumes.clear (s : Volumes) : Volumes := { s with fatFs := { s.fatFs with fsType := 0 } }

/-! ## FatFs -/

/-- The volume of a path, if it is one of the two. -/
def pathVolume (path : Path) : Option Device :=
  if (charAt path 0).isDigit ∧ charAt path 1 = ':' then
    if charAt path 0 = '0' then some .sd
    else if charAt path 0 = '1' then some .usb
    else none
  else some .sd

/-- `chk_mounted`: whether the volume is ready, and the drives that were accessed. The status of a
drive never has `STA_NOINIT` or `STA_PROTECT`. -/
def chkMounted (media : Media) (vol : Device) (s : Volumes) : Bool × List Device × Volumes :=
  if s.registered vol = false then (false, [], s)
  else if s.fatFs.fsType ≠ 0 then (true, [], s)
  else
    let fs := { s.fatFs with fsType := 0, drv := vol }
    let fmt := media.fmt vol (s.volToPart vol)
    if fmt = 0 then (false, [vol], { s with fatFs := fs })
    else
      let fs := { fs with fsType := fmt, pt := s.volToPart vol, mount := s.fsid + 1 }
      (true, [vol], { s with fatFs := fs, fsid := s.fsid + 1 })

/-- A call with a path on a volume, which goes to the drive of the object. -/
def callVolume (media : Media) (vol : Device) (s : Volumes) : Bool × List Device × Volumes :=
  let (ok, accessed, s) := chkMounted media vol s
  (ok, if ok then accessed ++ [s.fatFs.drv] else accessed, s)

/-- `f_mount`, with `fatFs` or without an object. -/
def fMount (vol : Device) (fs : Bool) (s : Volumes) : Volumes :=
  let s := if s.registered vol then s.clear else s
  let s := if fs then s.clear else s
  { s with registered := Function.update s.registered vol fs }

/-! ## The wrapper -/

/-- `VolToPart[device].pt = partition` -/
def Volumes.setPart (device : Device) (partition : Nat) (s : Volumes) : Volumes :=
  { s with volToPart := Function.update s.volToPart device partition }

/-- `__FAT_MountPartition` -/
def fatMountPartition (media : Media) (device : Device) (partition : Nat) (s : Volumes) :
    Int × List Device × Volumes :=
  let s := fMount device true (s.setPart device partition)
  let (ok, accessed, s) := callVolume media device s
  if ok ∧ media.root device partition then (0, accessed, s)
  else (fsEfatal, accessed, (fMount device false s).setPart device 4)

/-- The search of `FAT_Mount` for a partition. -/
def fatFindPartition (media : Media) (device : Device) : List Nat → Volumes →
    Int × List Device × Volumes
  | [], s => (fsEfatal, [], s)
  | i :: rest, s =>
    let (ret, accessed, s) := fatMountPartition media device i s
    if ret = 0 then (0, accessed, s)
    else
      let (ret, later, s) := fatFindPartition media device rest s
      (ret, accessed ++ later, s)

/-- `FAT_Mount` -/
def fatMount (media : Media) (device : Device) (partition : Int) (s : Volumes) :
    Int × List Device × Volumes :=
  if media.startup device = false then (ipcEinval, [], s)
  else if 0 ≤ partition ∧ partition < 4 then fatMountPartition media device partition.toNat s
  else fatFindPartition media device [0, 1, 2, 3] s

/-- `FAT_Unmount` -/
def fatUnmount (device : Device) (s : Volumes) : Int × Volumes :=
  (0, (fMount device false s).setPart device 4)

/-- `FAT_GetPartition` -/
def fatGetPartition (device : Device) (s : Volumes) : Option Nat :=
  if s.volToPart device ≥ 4 then none else some (s.volToPart device)

/-! ## Sessions -/

/-- `FIL`, with the volume of the path under which it was opened. -/
structure OpenFile where
  vol : Device
  mount : Nat

/-- `id` -/
def OpenFile.id (file : OpenFile) : UInt16 := UInt16.ofNat file.mount

/-- `validate` -/
def Volumes.Valid (s : Volumes) (file : OpenFile) : Prop :=
  s.fatFs.fsType ≠ 0 ∧ s.fatFs.id = file.id

instance (s : Volumes) (file : OpenFile) : Decidable (s.Valid file) :=
  inferInstanceAs (Decidable (_ ∧ _))

/-- The module with the files that were opened. -/
structure Session where
  volumes : Volumes
  files : List OpenFile

def Session.boot : Session where
  volumes := .boot
  files := []

/-- What is asked of the module. -/
inductive Request where
  | mount (device : Device) (partition : Int)
  | unmount (device : Device)
  /-- A call of FatFs with a path, which may open a file. A directory that it opens is read before
  the next request. -/
  | call (path : Path) (opens : Bool)
  /-- A call of FatFs with a file. -/
  | file (index : Nat)

/-- The drives that a request reads or writes, and the state after it. -/
def serve (media : Media) (request : Request) (s : Session) : List Device × Session :=
  match request with
  | .mount device partition =>
    let (_, accessed, volumes) := fatMount media device partition s.volumes
    (accessed, { s with volumes := volumes })
  | .unmount device => ([], { s with volumes := (fatUnmount device s.volumes).2 })
  | .call path opens =>
    match pathVolume path with
    | none => ([], s)
    | some vol =>
      let (ok, accessed, volumes) := callVolume media vol s.volumes
      let opened := if ok ∧ opens then [⟨vol, volumes.fatFs.mount⟩] else []
      (accessed, { volumes := volumes, files := s.files ++ opened })
  | .file index =>
    match s.files[index]? with
    | none => ([], s)
    | some file => (if s.volumes.Valid file then [s.volumes.fatFs.drv] else [], s)

/-- The state behind a request, which finds the disks as they are then. -/
def step (request : Media × Request) (s : Session) : Session := (serve request.1 request.2 s).2

/-- The object stands for a volume for which it is registered. -/
def Volumes.Mounted (s : Volumes) (vol : Device) : Prop :=
  s.registered vol = true ∧ s.fatFs.fsType ≠ 0 ∧ s.fatFs.drv = vol

/-- A file whose mount is not over. -/
def Volumes.Open (s : Volumes) (file : OpenFile) : Prop :=
  s.fatFs.fsType ≠ 0 ∧ file.mount = s.fatFs.mount

/-- A device is left alone, and so are the files that are open on it. -/
structure Undisturbed (device : Device) (s s' : Session) : Prop where
  registered : s'.volumes.registered device = s.volumes.registered device
  part : s'.volumes.volToPart device = s.volumes.volToPart device
  mounted : s.volumes.Mounted device → s'.volumes.Mounted device
  files : ∀ file ∈ s.files, file.vol = device → s.volumes.Open file → s'.volumes.Open file

/-- A request keeps to its own device. -/
def Isolated (media : Media) (request : Request) (s : Session) : Prop :=
  match request with
  | .mount device _ =>
    (∀ drv ∈ (serve media request s).1, drv = device) ∧
      Undisturbed device.other s (serve media request s).2
  | .unmount device => Undisturbed device.other s (serve media request s).2
  | .call path _ =>
    ∀ vol, pathVolume path = some vol → ∀ drv ∈ (serve media request s).1, drv = vol
  | .file index =>
    ∀ file, s.files[index]? = some file → ∀ drv ∈ (serve media request s).1, drv = file.vol

/-- A device that starts is mounted only while the other one is not registered, and a file whose
mount is over is not taken for one of the other device after 65536 mounts. -/
def OneAtATime (media : Media) (request : Request) (s : Session) : Prop :=
  match request with
  | .mount device _ => media.startup device = true → s.volumes.registered device.other = false
  | .file index =>
    ∀ file, s.files[index]? = some file → s.volumes.Valid file →
      file.mount ≠ s.volumes.fatFs.mount → s.volumes.fatFs.drv = file.vol
  | _ => True

/-! ## Mounting -/

@[simp] theorem Device.other_other (device : Device) : device.other.other = device := by
  cases device <;> rfl

theorem Device.other_ne (device : Device) : device.other ≠ device := by
  cases device <;> decide

theorem Device.eq_other_of_ne {device vol : Device} (ne : vol ≠ device) : vol = device.other := by
  cases device <;> cases vol <;> first | rfl | exact absurd rfl ne

/-- What mounting a device has led to, whether it succeeded or not. -/
structure Remounted (device : Device) (s s' : Volumes) : Prop where
  registered : s'.registered device.other = s.registered device.other
  part : s'.volToPart device.other = s.volToPart device.other
  fsid_le : s.fsid ≤ s'.fsid
  mount_le : s'.fatFs.mount ≤ s'.fsid
  outcome : s'.fatFs.fsType = 0 ∧ s'.registered device = false ∨
    s'.Mounted device ∧ s.fsid < s'.fatFs.mount

theorem Remounted.trans {device : Device} {s t u : Volumes} (first : Remounted device s t)
    (second : Remounted device t u) : Remounted device s u where
  registered := second.registered.trans first.registered
  part := second.part.trans first.part
  fsid_le := first.fsid_le.trans second.fsid_le
  mount_le := second.mount_le
  outcome := second.outcome.imp_right fun ⟨mounted, later⟩ =>
    ⟨mounted, lt_of_le_of_lt first.fsid_le later⟩

/-- `f_mount` of an object clears it. -/
theorem fMount_object (vol : Device) (s : Volumes) :
    fMount vol true s = { s.clear with registered := Function.update s.registered vol true } := by
  unfold fMount
  split <;> rfl

/-- What `f_mount` without an object does to the one that was registered. -/
theorem fMount_null {vol : Device} {s : Volumes} (registered : s.registered vol = true) :
    fMount vol false s = { s.clear with registered := Function.update s.registered vol false } := by
  unfold fMount
  rw [if_pos registered]
  rfl

/-- A call on a volume whose object is clear binds the object to its drive. -/
theorem callVolume_clear (media : Media) {vol : Device} {s : Volumes}
    (registered : s.registered vol = true) (clear : s.fatFs.fsType = 0) :
    callVolume media vol s =
      if media.fmt vol (s.volToPart vol) = 0 then
        (false, [vol], { s with fatFs := { s.fatFs with fsType := 0, drv := vol } })
      else (true, [vol, vol],
        { s with
          fatFs := ⟨media.fmt vol (s.volToPart vol), vol, s.volToPart vol, s.fsid + 1⟩
          fsid := s.fsid + 1 }) := by
  have enabled : ¬ s.registered vol = false := by simp [registered]
  by_cases none : media.fmt vol (s.volToPart vol) = 0
  case pos => simp only [callVolume, chkMounted, if_neg enabled, clear, ne_eq, not_true_eq_false,
    if_false, if_pos none, Bool.false_eq_true]
  case neg => simp only [callVolume, chkMounted, if_neg enabled, clear, ne_eq, not_true_eq_false,
    if_false, if_neg none, if_true, List.singleton_append]

/-- A mount binds the object to its device, and accesses no other. -/
theorem fatMountPartition_remounted (media : Media) (device : Device) (partition : Nat)
    {s : Volumes} (bound : s.fatFs.mount ≤ s.fsid) :
    Remounted device s (fatMountPartition media device partition s).2.2 ∧
      ∀ drv ∈ (fatMountPartition media device partition s).2.1, drv = device := by
  obtain ⟨t, started⟩ : ∃ t, fMount device true (s.setPart device partition) = t := ⟨_, rfl⟩
  have shape := started.symm.trans (fMount_object device _)
  have registered : t.registered device = true := by simp [shape]
  have clear : t.fatFs.fsType = 0 := by rw [shape]; rfl
  have others : t.registered device.other = s.registered device.other ∧
      t.volToPart device.other = s.volToPart device.other := by
    rw [shape]
    exact ⟨Function.update_of_ne device.other_ne _ _, Function.update_of_ne device.other_ne _ _⟩
  have counts : t.fsid = s.fsid ∧ t.fatFs.mount = s.fatFs.mount := by
    rw [shape]
    exact ⟨rfl, rfl⟩
  have failed (u : Volumes) (on : u.registered device = true)
      (others' : u.registered device.other = t.registered device.other ∧
        u.volToPart device.other = t.volToPart device.other)
      (grown : s.fsid ≤ u.fsid) (bound' : u.fatFs.mount ≤ u.fsid) :
      Remounted device s ((fMount device false u).setPart device 4) := by
    rw [fMount_null on]
    exact ⟨(Function.update_of_ne device.other_ne _ _).trans (others'.1.trans others.1),
      (Function.update_of_ne device.other_ne _ _).trans (others'.2.trans others.2),
      grown, bound', .inl ⟨rfl, Function.update_self _ _ _⟩⟩
  have call := callVolume_clear media registered clear
  by_cases none : media.fmt device (t.volToPart device) = 0
  case pos =>
    simp only [fatMountPartition, started, call, if_pos none, Bool.false_eq_true, false_and,
      if_false]
    exact ⟨failed _ registered ⟨rfl, rfl⟩ counts.1.ge (by simp only [counts, bound]), by simp⟩
  case neg =>
    simp only [fatMountPartition, started, call, if_neg none, true_and]
    by_cases root : media.root device partition = true
    case pos =>
      simp only [if_pos root]
      refine ⟨⟨others.1, others.2, ?_, le_refl _, .inr ⟨⟨registered, none, rfl⟩, ?_⟩⟩, by simp⟩
      · simp only [counts]; omega
      · simp only [counts]; omega
    case neg =>
      simp only [if_neg root]
      refine ⟨failed _ registered ⟨rfl, rfl⟩ ?_ (le_refl _), by simp⟩
      simp only [counts]; omega

/-- The search stops at a partition that is mounted, or fails on the last one. -/
theorem fatFindPartition_remounted (media : Media) (device : Device) (i : Nat) (rest : List Nat)
    {s : Volumes} (bound : s.fatFs.mount ≤ s.fsid) :
    Remounted device s (fatFindPartition media device (i :: rest) s).2.2 ∧
      ∀ drv ∈ (fatFindPartition media device (i :: rest) s).2.1, drv = device := by
  induction rest generalizing i s with
  | nil =>
    obtain ⟨remounted, own⟩ := fatMountPartition_remounted media device i bound
    simp only [fatFindPartition, List.append_nil]
    split <;> exact ⟨remounted, own⟩
  | cons j rest ih =>
    obtain ⟨remounted, own⟩ := fatMountPartition_remounted media device i bound
    obtain ⟨remounted', own'⟩ := ih j remounted.mount_le
    rcases tried : fatMountPartition media device i s with ⟨ret, accessed, t⟩
    rw [tried] at remounted own remounted' own'
    by_cases done : ret = 0
    case pos =>
      rw [fatFindPartition]
      simp only [tried, if_pos done]
      exact ⟨remounted, own⟩
    case neg =>
      rw [fatFindPartition]
      simp only [tried, if_neg done]
      exact ⟨remounted.trans remounted',
        fun drv mem => (List.mem_append.mp mem).elim (own drv) (own' drv)⟩

/-- A device that starts is mounted, or fails to be. -/
theorem fatMount_remounted (media : Media) (device : Device) (partition : Int) {s : Volumes}
    (started : media.startup device = true) (bound : s.fatFs.mount ≤ s.fsid) :
    Remounted device s (fatMount media device partition s).2.2 ∧
      ∀ drv ∈ (fatMount media device partition s).2.1, drv = device := by
  unfold fatMount
  rw [if_neg (by simp [started])]
  split
  · exact fatMountPartition_remounted media device _ bound
  · exact fatFindPartition_remounted media device 0 [1, 2, 3] bound

/-- A partition that FatFs can use is mounted. -/
theorem fatMount_mounts {media : Media} {device : Device} {partition : Nat}
    (started : media.startup device = true) (lt : partition < 4)
    (fmt : media.fmt device partition ≠ 0) (root : media.root device partition = true)
    (s : Volumes) :
    (fatMount media device partition s).2.2.volToPart device = partition ∧
      (fatMount media device partition s).2.2.Mounted device ∧
      (fatMount media device partition s).2.2.fatFs.pt = partition := by
  obtain ⟨t, prepared⟩ : ∃ t, fMount device true (s.setPart device partition) = t := ⟨_, rfl⟩
  have shape := prepared.symm.trans (fMount_object device _)
  have registered : t.registered device = true := by simp [shape]
  have clear : t.fatFs.fsType = 0 := by rw [shape]; rfl
  have part : t.volToPart device = partition := by
    rw [shape]
    exact Function.update_self _ _ _
  have range : (0 : Int) ≤ partition ∧ (partition : Int) < 4 := by omega
  have mount : (fatMount media device partition s).2.2 =
      { t with fatFs := ⟨media.fmt device partition, device, partition, t.fsid + 1⟩,
               fsid := t.fsid + 1 } := by
    have call := callVolume_clear media registered clear
    rw [part, if_neg fmt] at call
    simp only [fatMount, started, Bool.true_eq_false, if_false, if_pos range, Int.toNat_natCast,
      fatMountPartition, prepared, call, root, and_self, if_true]
  rw [mount]
  exact ⟨part, ⟨registered, fmt, rfl⟩, rfl⟩

/-! ## Runs -/

/-- What holds of a session in which the devices were mounted one at a time. -/
structure Kept (s : Session) : Prop where
  single : ∀ vol, s.volumes.registered vol = true → s.volumes.registered vol.other = false
  mounted : ∀ vol, s.volumes.registered vol = true → s.volumes.Mounted vol
  registered : s.volumes.fatFs.fsType ≠ 0 → s.volumes.registered s.volumes.fatFs.drv = true
  mount_le : s.volumes.fatFs.mount ≤ s.volumes.fsid
  files_le : ∀ file ∈ s.files, file.mount ≤ s.volumes.fsid
  files : ∀ file ∈ s.files, s.volumes.Open file → s.volumes.fatFs.drv = file.vol

/-- At the start nothing is mounted. -/
theorem Kept.boot : Kept .boot where
  single _ off := by cases off
  mounted _ off := by cases off
  registered clear := absurd rfl clear
  mount_le := le_refl _
  files_le _ mem := by cases mem
  files _ mem := by cases mem

/-- A volume that is registered is ready, and the other one is not enabled. -/
theorem Kept.callVolume {s : Session} (kept : Kept s) (media : Media) (vol : Device) :
    callVolume media vol s.volumes =
      if s.volumes.registered vol = true then (true, [vol], s.volumes)
      else (false, [], s.volumes) := by
  by_cases on : s.volumes.registered vol = true
  case pos =>
    obtain ⟨-, typed, drv⟩ := kept.mounted vol on
    have enabled : ¬ s.volumes.registered vol = false := by simp [on]
    simp only [Fat.callVolume, chkMounted, if_neg enabled, if_pos typed, if_pos on, if_true, drv,
      List.nil_append]
  case neg =>
    have off : s.volumes.registered vol = false := by simpa using on
    simp only [Fat.callVolume, chkMounted, if_pos off, if_neg on, Bool.false_eq_true, if_false]

/-- A device is mounted while the other one is not. -/
theorem Kept.remounted {s : Session} (kept : Kept s) {device : Device} {volumes : Volumes}
    (free : s.volumes.registered device.other = false)
    (after : Remounted device s.volumes volumes) : Kept { s with volumes := volumes } := by
  have off : volumes.registered device.other = false := after.registered.trans free
  have own {vol : Device} (on : volumes.registered vol = true) : vol = device := by
    by_contra ne
    rw [Device.eq_other_of_ne ne, off] at on
    exact Bool.false_ne_true on
  have open_iff {file : OpenFile} (mem : file ∈ s.files) : ¬ volumes.Open file := by
    rintro ⟨typed, current⟩
    rcases after.outcome with ⟨clear, -⟩ | ⟨-, later⟩
    · exact typed clear
    · exact absurd (kept.files_le file mem) (by omega)
  refine ⟨fun vol on => own on ▸ off, fun vol on => ?_, fun typed => ?_, after.mount_le,
    fun file mem => (kept.files_le file mem).trans after.fsid_le,
    fun file mem opened => absurd opened (open_iff mem)⟩
  · obtain rfl := own on
    rcases after.outcome with ⟨-, gone⟩ | ⟨mounted, -⟩
    · exact absurd (on.symm.trans gone) (by decide)
    · exact mounted
  · rcases after.outcome with ⟨clear, -⟩ | ⟨⟨on, -, drv⟩, -⟩
    · exact absurd clear typed
    · exact drv ▸ on

/-- A device that is not registered has no open files. -/
theorem Kept.not_open {s : Session} (kept : Kept s) {device : Device}
    (off : s.volumes.registered device = false) {file : OpenFile} (mem : file ∈ s.files)
    (vol : file.vol = device) : ¬ s.volumes.Open file := fun opened => by
  have on := kept.registered opened.1
  rw [kept.files file mem opened, vol, off] at on
  exact Bool.false_ne_true on

/-- A volume that is not registered is not mounted. -/
theorem Kept.not_mounted {s : Session} {device : Device}
    (off : s.volumes.registered device = false) : ¬ s.volumes.Mounted device :=
  fun mounted => absurd (mounted.1.symm.trans off) (by decide)

/-- What unmounting a device leads to. -/
theorem serve_unmount (media : Media) (device : Device) (s : Session) :
    (serve media (.unmount device) s).2 =
      { s with
        volumes := { s.volumes with
          fatFs := if s.volumes.registered device then { s.volumes.fatFs with fsType := 0 }
            else s.volumes.fatFs
          registered := Function.update s.volumes.registered device false
          volToPart := Function.update s.volumes.volToPart device 4 } } := by
  simp only [serve, fatUnmount, fMount, Volumes.setPart, Bool.false_eq_true, if_false]
  split <;> rfl

/-- An unmount leaves the other device alone. -/
theorem Kept.unmount_isolated {s : Session} (kept : Kept s) (media : Media) (device : Device) :
    Isolated media (.unmount device) s := by
  have frame {β : Type} (f : Device → β) (b : β) :
      Function.update f device b device.other = f device.other :=
    Function.update_of_ne device.other_ne _ _
  show Undisturbed _ _ _
  rw [serve_unmount]
  refine ⟨frame _ _, frame _ _, fun mounted => ?_, fun file mem vol opened => ?_⟩
  · have off : s.volumes.registered device = false := by
      simpa using kept.single device.other mounted.1
    obtain ⟨on, typed, drv⟩ := mounted
    simp only [off, Bool.false_eq_true, if_false]
    exact ⟨(frame _ _).trans on, typed, drv⟩
  · have on : s.volumes.registered device.other = true := by
      have on := kept.registered opened.1
      rwa [kept.files file mem opened, vol] at on
    have off : s.volumes.registered device = false := by simpa using kept.single device.other on
    simp only [off, Bool.false_eq_true, if_false]
    exact opened

/-- In such a session a request keeps to its own device exactly if it meets the condition. -/
theorem Kept.isolated_iff {s : Session} (kept : Kept s) (media : Media) (request : Request) :
    Isolated media request s ↔ OneAtATime media request s := by
  cases request with
  | mount device partition =>
    by_cases started : media.startup device = true
    case neg =>
      have idle : serve media (.mount device partition) s = ([], s) := by
        simp only [serve, fatMount, if_pos (Bool.eq_false_iff.mpr started)]
      refine ⟨fun _ starts => absurd starts started, fun _ => ?_⟩
      rw [Isolated, idle]
      exact ⟨by simp, rfl, rfl, id, fun _ _ _ => id⟩
    case pos =>
      obtain ⟨after, own⟩ := fatMount_remounted media device partition started kept.mount_le
      constructor
      · rintro ⟨-, frame⟩ -
        rw [← Bool.not_eq_true]
        intro on
        obtain ⟨-, typed, drv⟩ := frame.mounted (kept.mounted _ on)
        rcases after.outcome with ⟨clear, -⟩ | ⟨⟨-, -, drv'⟩, -⟩
        · exact typed clear
        · exact device.other_ne (drv.symm.trans drv')
      · intro free
        have off := free started
        exact ⟨own, after.registered, after.part,
          fun mounted => absurd mounted (Kept.not_mounted off),
          fun file mem vol opened => absurd opened (kept.not_open off mem vol)⟩
  | unmount device => exact iff_of_true (kept.unmount_isolated media device) trivial
  | call path opens =>
    refine iff_of_true (fun vol named drv mem => ?_) trivial
    simp only [serve, named, kept.callVolume media vol] at mem
    split at mem
    · exact List.mem_singleton.mp mem
    · exact absurd mem List.not_mem_nil
  | file index =>
    refine forall_congr' fun file => forall_congr' fun found => ?_
    have mem := List.mem_of_getElem? found
    by_cases valid : s.volumes.Valid file
    case neg => simp [serve, found, valid]
    case pos =>
      simp only [serve, found, valid, if_true, List.mem_singleton, forall_eq, forall_const]
      exact ⟨fun own _ => own, fun own => (eq_or_ne file.mount s.volumes.fatFs.mount).elim
        (fun current => kept.files file mem ⟨valid.1, current⟩) own⟩

/-- An unmount keeps the devices apart. -/
theorem Kept.unmount {s : Session} (kept : Kept s) (media : Media) (device : Device) :
    Kept (Fat.serve media (.unmount device) s).2 := by
  rw [serve_unmount]
  by_cases on : s.volumes.registered device = true
  case pos =>
    -- the only volume that was registered is gone, and the object is clear
    have gone (vol : Device) : Function.update s.volumes.registered device false vol = false := by
      by_cases eq : vol = device
      · rw [eq, Function.update_self]
      · rw [Function.update_of_ne eq, Device.eq_other_of_ne eq]
        exact kept.single device on
    simp only [on, if_true]
    exact ⟨fun vol registered => absurd (registered.symm.trans (gone vol)) (by decide),
      fun vol registered => absurd (registered.symm.trans (gone vol)) (by decide),
      fun typed => absurd rfl typed, kept.mount_le, kept.files_le,
      fun file _ opened => absurd rfl opened.1⟩
  case neg =>
    have off : s.volumes.registered device = false := by simpa using on
    have same : Function.update s.volumes.registered device false = s.volumes.registered := by
      rw [← off]
      exact Function.update_eq_self _ _
    simp only [off, same, Bool.false_eq_true, if_false]
    exact ⟨kept.single, kept.mounted, kept.registered, kept.mount_le, kept.files_le, kept.files⟩

/-- A call keeps the devices apart. -/
theorem Kept.call {s : Session} (kept : Kept s) (media : Media) (path : Path) (opens : Bool) :
    Kept (Fat.serve media (.call path opens) s).2 := by
  simp only [Fat.serve]
  split
  · exact kept
  rename_i vol named
  by_cases on : s.volumes.registered vol = true
  case neg =>
    simp only [kept.callVolume media vol, if_neg on, Bool.false_eq_true, false_and, if_false,
      List.append_nil]
    exact kept
  case pos =>
    obtain ⟨-, -, drv⟩ := kept.mounted vol on
    simp only [kept.callVolume media vol, if_pos on, true_and]
    have opened {file : OpenFile}
        (mem : file ∈ s.files ++ if opens = true then [⟨vol, s.volumes.fatFs.mount⟩] else []) :
        file ∈ s.files ∨ file = ⟨vol, s.volumes.fatFs.mount⟩ := by
      refine (List.mem_append.mp mem).imp_right fun mem => ?_
      split at mem
      · exact List.mem_singleton.mp mem
      · exact absurd mem List.not_mem_nil
    refine ⟨kept.single, kept.mounted, kept.registered, kept.mount_le, fun file mem => ?_,
      fun file mem isOpen => ?_⟩
    · rcases opened mem with mem | rfl
      · exact kept.files_le file mem
      · exact kept.mount_le
    · rcases opened mem with mem | rfl
      · exact kept.files file mem isOpen
      · exact drv

/-- One request keeps the devices apart. -/
theorem Kept.serve {s : Session} (kept : Kept s) {media : Media} {request : Request}
    (single : OneAtATime media request s) : Kept (serve media request s).2 := by
  cases request with
  | mount device partition =>
    by_cases started : media.startup device = true
    case neg =>
      simp only [Fat.serve, fatMount, if_pos (Bool.eq_false_iff.mpr started)]
      exact kept
    case pos =>
      exact kept.remounted (single started)
        (fatMount_remounted media device partition started kept.mount_le).1
  | unmount device => exact kept.unmount media device
  | call path opens => exact kept.call media path opens
  | file index =>
    simp only [Fat.serve]
    split <;> exact kept

/-- In every run, every request keeps to its own device exactly if the devices
are mounted one at a time. -/
theorem isolated_iff_oneAtATime (requests : List (Media × Request)) :
    Throughout step (Function.uncurry Isolated) requests .boot ↔
      Throughout step (Function.uncurry OneAtATime) requests .boot := by
  have each (request : Media × Request) (s : Session) (_ : True) (kept : Kept s) :
      (Function.uncurry Isolated request s ↔ Function.uncurry OneAtATime request s) ∧
        (Function.uncurry OneAtATime request s → Kept (step request s)) :=
    ⟨kept.isolated_iff request.1 request.2, fun single => kept.serve single⟩
  exact Throughout.iff_of_invariant each (.of_forall fun _ _ => trivial) .boot

/-! ## Both devices at once -/

/-- A card and a USB device with a FAT32 volume on the first partition. -/
def bothPresent : Media where
  startup _ := true
  fmt _ pt := if pt = 0 then 3 else 0
  root _ _ := true

/-- The card is mounted, then the USB device, and a save on the card is opened. -/
def bothMounted : List (Media × Request) :=
  [(bothPresent, .mount .sd 0), (bothPresent, .mount .usb 0),
    (bothPresent, .call "0:/nand/title/00010000/save".toList false)]

/-- The save is looked for on the USB device. -/
theorem bothMounted_crosses :
    (serve bothPresent (.call "0:/nand/title/00010000/save".toList false)
        (serve bothPresent (.mount .usb 0) (serve bothPresent (.mount .sd 0) .boot).2).2).1 =
      [.usb] ∧
    ¬ Throughout step (Function.uncurry Isolated) bothMounted .boot := by
  have crosses : (serve bothPresent (.call "0:/nand/title/00010000/save".toList false)
      (serve bothPresent (.mount .usb 0) (serve bothPresent (.mount .sd 0) .boot).2).2).1 =
      [.usb] := by decide
  refine ⟨crosses, fun always => ?_⟩
  have isolated : Isolated bothPresent (.call "0:/nand/title/00010000/save".toList false)
      (serve bothPresent (.mount .usb 0) (serve bothPresent (.mount .sd 0) .boot).2).2 :=
    always.2.2.1
  have own := isolated .sd (by decide) .usb (by rw [crosses]; exact List.mem_singleton_self _)
  exact absurd own (by decide)

end D2xCios.Fat
