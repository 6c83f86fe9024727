import D2xCios.Dip.Drive
import D2xCios.Dip.FragRead
import D2xCios.Lib.FileStore

/-!
# The configuration file on flash

What a working flash file system makes of the calls in `config.c`, and what the
two functions on `/sys/dip.cfg` then do: a record that was saved, with its list,
is the one that is loaded, and the file is gone after that.
-/

namespace D2xCios.Dip

open D2xCios.Lib

variable {σ φ : Type}

/-! ## Records as bytes -/

@[simp] theorem DipConfigState.bytes_length (cfg : DipConfigState) :
    cfg.bytes.length = dipConfigSize := rfl

@[simp] theorem FfsConfigState.bytes_length (cfg : FfsConfigState) :
    cfg.bytes.length = ffsConfigSize := by
  simp [FfsConfigState.bytes, ffsConfigSize]

/-- The record of the drive is read back from its bytes. -/
theorem DipConfigState.ofBytes_bytes (cfg : DipConfigState) : .ofBytes cfg.bytes = cfg := by
  have mode : be32 (bufferOf cfg.bytes) 0 = cfg.mode := be32_of_bytes rfl
  have device : be32 (bufferOf cfg.bytes) 4 = cfg.device := be32_of_bytes rfl
  have fragSize : be32 (bufferOf cfg.bytes) 8 = cfg.fragSize := be32_of_bytes rfl
  simp only [DipConfigState.ofBytes, mode, device, fragSize]

/-- The record of the FFS plugin is read back from its bytes. -/
theorem FfsConfigState.ofBytes_bytes (cfg : FfsConfigState) : .ofBytes cfg.bytes = cfg := by
  have mode : be32 (bufferOf cfg.bytes) 0 = cfg.mode := be32_of_bytes rfl
  have partition : be32 (bufferOf cfg.bytes) 4 = cfg.partition := be32_of_bytes rfl
  have path : (Vector.ofFn fun i : Fin 64 => bufferOf cfg.bytes (8 + i)) = cfg.path := by
    ext i lt
    have behind : (bytes32 cfg.mode ++ bytes32 cfg.partition).length ≤ 8 + i := by simp
    simp only [Vector.getElem_ofFn, bufferOf, FfsConfigState.bytes, List.getD_eq_getElem?_getD,
      List.getElem?_append_right behind]
    simp [lt]
  simp only [FfsConfigState.ofBytes, mode, partition, path]

/-- Reading as many bytes as there are leaves nothing of what was there before. -/
theorem readInto_full {old bytes : List UInt8} {size : Nat} (full : bytes.length = size) :
    readInto old bytes size = bytes := by
  rw [readInto, ← full, List.take_left]

/-- A size read back from a result. -/
theorem ofInt_toNat (value : UInt32) : UInt32.ofInt (value.toNat : Int) = value := by
  apply UInt32.toNat_inj.mp
  have bound := value.toNat_lt
  simp only [UInt32.ofInt, UInt32.toNat_ofNat']
  omega

/-- A list read back from its bytes. -/
theorem bufferOf_window_eq_fragCopy (list : Mem) (size : Nat) :
    bufferOf (list.window 0 size) = fragCopy list size := by
  funext i
  by_cases inside : i < size
  · simp [fragCopy, inside, bufferOf_window list inside]
  · simp [fragCopy, inside, bufferOf]

/-! ## Flash -/

/-- Every operation on a configuration file succeeds, as on the store that `view` shows. -/
structure DrivePort.Stores (port : DrivePort σ φ) (view : φ → FileStore CfgFile) : Prop where
  missing : ∀ name mode flash, (view flash).file name = none →
    (port.openFile name mode flash).1 < 0 ∧
    view (port.openFile name mode flash).2 = view flash
  found : ∀ name mode flash, (view flash).file name ≠ none →
    0 ≤ (port.openFile name mode flash).1 ∧
    view (port.openFile name mode flash).2 =
      (view flash).seat (port.openFile name mode flash).1 (some (name, 0))
  read : ∀ fd len flash, (view flash).handle fd ≠ none →
    (port.readFile fd len flash).1 = ((view flash).readAt fd len).length ∧
    (port.readFile fd len flash).2.1 = (view flash).readAt fd len ∧
    view (port.readFile fd len flash).2.2 = (view flash).read fd len
  write : ∀ fd bytes flash, (view flash).handle fd ≠ none →
    (port.writeFile fd bytes flash).1 = bytes.length ∧
    view (port.writeFile fd bytes flash).2 = (view flash).write fd bytes
  close : ∀ fd flash, view (port.closeFile fd flash) = (view flash).seat fd none
  create : ∀ name flash, view (port.createFile name flash) = (view flash).create name
  delete : ∀ name flash, view (port.deleteFile name flash) = (view flash).delete name

/-- The contents of `/sys/dip.cfg` when `cfg` has been saved while `list` was in `fraglist_data`:
an older, longer file may show behind it. -/
def SavedAs (contents : List UInt8) (cfg : DipConfigState) (list : Mem) : Prop :=
  ∃ rest, contents = cfg.bytes ++ rest ∧
    (cfg.mode = modeFrag → list.window 0 cfg.fragSize.toNat <+: rest)

section Files

variable {port : DrivePort σ φ} {view : φ → FileStore CfgFile} (stores : port.Stores view)
  (s : Drive σ φ)

include stores

omit s in
/-- A record is written at the start of a file that may exist. -/
theorem DrivePort.Stores.written (name : CfgFile) (bytes : List UInt8) (flash : φ) :
    ∃ fd flash₁ flash₂ old,
      port.openFile name .write (port.createFile name flash) = (fd, flash₁) ∧ 0 ≤ fd ∧
      port.writeFile fd bytes flash₁ = ((bytes.length : Int), flash₂) ∧
      (view flash₂).handle fd = some (name, bytes.length) ∧
      (view flash₂).file name = some (bytes ++ old) ∧
      ∀ other ≠ name, (view flash₂).file other = (view flash).file other := by
  obtain ⟨old, created⟩ : ∃ old, (view (port.createFile name flash)).file name = some old :=
    ⟨_, by rw [stores.create, FileStore.create_self]⟩
  obtain ⟨opens, seated⟩ :=
    stores.found name .write (port.createFile name flash) (by simp [created])
  obtain ⟨fd, flash₁, opened⟩ : ∃ fd flash₁,
    port.openFile name .write (port.createFile name flash) = (fd, flash₁) := ⟨_, _, rfl⟩
  rw [opened] at opens seated
  have handle₁ : (view flash₁).handle fd = some (name, 0) := by rw [seated, FileStore.seat_handle]
  have file₁ : (view flash₁).file name = some old := by rw [seated, FileStore.seat_file, created]
  obtain ⟨ret, after⟩ := stores.write fd bytes flash₁ (by simp [handle₁])
  obtain ⟨ret₂, flash₂, written⟩ : ∃ ret₂ flash₂,
    port.writeFile fd bytes flash₁ = (ret₂, flash₂) := ⟨_, _, rfl⟩
  rw [written] at ret after
  refine ⟨fd, flash₁, flash₂, old.drop bytes.length, opened, opens, ?_, ?_, ?_, ?_⟩
  · rw [written, ← ret]
  · rw [after, FileStore.write_handle _ handle₁, Nat.zero_add]
  · rw [after, FileStore.write_self _ handle₁, file₁, Option.getD_some, patch_start]
  · intro other distinct
    rw [after, FileStore.write_other _ handle₁ _ distinct, seated, FileStore.seat_file,
      stores.create, FileStore.create_other _ distinct]

omit s in
/-- A record is read from the start of a file. -/
theorem DrivePort.Stores.fetched {name : CfgFile} {flash : φ} {contents : List UInt8}
    (file : (view flash).file name = some contents) (size : Nat) : ∃ fd flash₁ flash₂,
      port.openFile name .read flash = (fd, flash₁) ∧ 0 ≤ fd ∧
      port.readFile fd size flash₁ =
        (((contents.take size).length : Int), contents.take size, flash₂) ∧
      (view flash₂).handle fd = some (name, (contents.take size).length) ∧
      (view flash₂).file = (view flash).file := by
  obtain ⟨opens, seated⟩ := stores.found name .read flash (by simp [file])
  obtain ⟨fd, flash₁, opened⟩ : ∃ fd flash₁,
    port.openFile name .read flash = (fd, flash₁) := ⟨_, _, rfl⟩
  rw [opened] at opens seated
  have handle₁ : (view flash₁).handle fd = some (name, 0) := by rw [seated, FileStore.seat_handle]
  have file₁ : (view flash₁).file = (view flash).file := by rw [seated, FileStore.seat_file]
  have record : (view flash₁).readAt fd size = contents.take size := by
    rw [FileStore.readAt_of _ handle₁, file₁, file, Option.getD_some, List.drop_zero]
  obtain ⟨ret, bytes, after⟩ := stores.read fd size flash₁ (by simp [handle₁])
  obtain ⟨ret₂, bytes₂, flash₂, read⟩ : ∃ ret₂ bytes₂ flash₂,
    port.readFile fd size flash₁ = (ret₂, bytes₂, flash₂) := ⟨_, _, _, rfl⟩
  rw [read, record] at ret bytes
  rw [read] at after
  refine ⟨fd, flash₁, flash₂, opened, opens, ?_, ?_, ?_⟩
  · rw [read, ← ret, ← bytes]
  · rw [after, FileStore.read_handle _ handle₁, record, Nat.zero_add]
  · rw [after, FileStore.read_file, file₁]

/-- A save succeeds, and leaves the record and the list in the file. -/
theorem diConfigSave_saved : ∃ flash contents,
    (diConfigSave port s).2 = { s with flash := flash } ∧ 0 ≤ (diConfigSave port s).1 ∧
    (view flash).file .dip = some contents ∧
    SavedAs contents s.dipCfgState s.frag.fraglistData := by
  obtain ⟨fd, flash₁, flash₂, old, opened, opens, written, handle₂, file₂, -⟩ :=
    stores.written .dip s.dipCfgState.bytes s.flash
  have positive : ¬fd < 0 := Int.not_lt.mpr opens
  have full : (s.dipCfgState.bytes.length : Int) = dipConfigSize := rfl
  by_cases frag : s.dipCfgState.mode = modeFrag
  case neg =>
    refine ⟨port.closeFile fd flash₂, _, ?_, ?_, by rw [stores.close, FileStore.seat_file, file₂],
      _, rfl, fun eq => absurd eq frag⟩
    · simp only [diConfigSave, opened, written, positive, frag, and_false, if_false]
    · simp only [diConfigSave, opened, written, positive, frag, and_false, if_false, full]
      omega
  case pos =>
    obtain ⟨ret', after'⟩ := stores.write fd
      (s.frag.fraglistData.window 0 s.dipCfgState.fragSize.toNat) flash₂ (by simp [handle₂])
    obtain ⟨ret₃, flash₃, written'⟩ : ∃ ret₃ flash₃, port.writeFile fd
      (s.frag.fraglistData.window 0 s.dipCfgState.fragSize.toNat) flash₂ = (ret₃, flash₃) :=
      ⟨_, _, rfl⟩
    rw [written'] at ret' after'
    have file₃ : (view flash₃).file .dip = some (s.dipCfgState.bytes ++
        (s.frag.fraglistData.window 0 s.dipCfgState.fragSize.toNat ++
          old.drop (s.frag.fraglistData.window 0 s.dipCfgState.fragSize.toNat).length)) := by
      rw [after', FileStore.write_self _ handle₂, file₂, Option.getD_some, patch_next]
    have positive₃ : ¬ret₃ < 0 := by omega
    refine ⟨port.closeFile fd flash₃, _, ?_, ?_, by rw [stores.close, FileStore.seat_file, file₃],
      _, rfl, fun _ => List.prefix_append _ _⟩
    · simp only [diConfigSave, opened, written, written', positive, frag, full, and_self, if_true,
        if_false]
    · simp only [diConfigSave, opened, written, written', positive, frag, full, and_self, if_true,
        if_false, positive₃]
      omega

/-- There is nothing to load. -/
theorem diConfigLoad_missing (missing : (view s.flash).file .dip = none) : ∃ flash,
    (diConfigLoad port s).2 = { s with flash := flash } ∧ (diConfigLoad port s).1 < 0 ∧
    (view flash).file .dip = none := by
  obtain ⟨fails, same⟩ := stores.missing .dip .read s.flash missing
  obtain ⟨fd, flash, opened⟩ : ∃ fd flash,
    port.openFile .dip .read s.flash = (fd, flash) := ⟨_, _, rfl⟩
  rw [opened] at fails same
  simp only [diConfigLoad, opened, fails, if_true]
  exact ⟨flash, rfl, trivial, by rw [same, missing]⟩

/-- The list is loaded as it was saved. -/
theorem diConfigLoadList_saved {cfg : DipConfigState} {fd : Int} (ret : Int) {list : Mem}
    {rest : List UInt8} (handle : (view s.flash).handle fd = some (.dip, dipConfigSize))
    (file : (view s.flash).file .dip = some (cfg.bytes ++ rest))
    (listed : list.window 0 cfg.fragSize.toNat <+: rest)
    (size_le : cfg.fragSize.toNat ≤ fragListSize) : ∃ flash,
    diConfigLoadList port fd ret cfg s = (ret, { s with
      flash := flash
      frag := { s.frag with fraglistData := fragCopy list cfg.fragSize.toNat } }) := by
  have length : rest.take cfg.fragSize.toNat = list.window 0 cfg.fragSize.toNat := by
    have eq := List.prefix_iff_eq_take.mp listed
    rw [Cells.window_length] at eq
    exact eq.symm
  have data : (view s.flash).readAt fd cfg.fragSize.toNat =
      list.window 0 cfg.fragSize.toNat := by
    rw [FileStore.readAt_of _ handle, file, Option.getD_some, ← DipConfigState.bytes_length cfg,
      List.drop_left, length]
  obtain ⟨ret₂, bytes, -⟩ := stores.read fd cfg.fragSize.toNat s.flash (by simp [handle])
  obtain ⟨ret', bytes', flash, read⟩ : ∃ ret' bytes' flash,
    port.readFile fd cfg.fragSize.toNat s.flash = (ret', bytes', flash) := ⟨_, _, _, rfl⟩
  rw [read, data, Cells.window_length] at ret₂
  rw [read, data] at bytes
  simp only at ret₂ bytes
  have whole : UInt32.ofInt ret' = cfg.fragSize := by
    rw [ret₂, ofInt_toNat]
  refine ⟨flash, ?_⟩
  simp only [diConfigLoadList, Nat.not_lt.mpr size_le, if_false, read, whole, bytes,
    bufferOf_window_eq_fragCopy, ne_eq, not_true_eq_false]

/-- The record and its list are loaded, and the file deleted. -/
theorem diConfigLoad_saved {contents : List UInt8} {cfg : DipConfigState} {list : Mem}
    (file : (view s.flash).file .dip = some contents) (saved : SavedAs contents cfg list)
    (size_le : cfg.mode = modeFrag → cfg.fragSize.toNat ≤ fragListSize) : ∃ flash,
    diConfigLoad port s = ((dipConfigSize : Int), { s with
      dipCfgState := cfg
      flash := flash
      frag := { s.frag with
        fraglistData := if cfg.mode = modeFrag then fragCopy list cfg.fragSize.toNat
          else s.frag.fraglistData } }) ∧
    (view flash).file .dip = none := by
  obtain ⟨rest, rfl, listed⟩ := saved
  obtain ⟨fd, flash₁, flash₂, opened, opens, read, handle₂, same⟩ :=
    stores.fetched file dipConfigSize
  have record : (cfg.bytes ++ rest).take dipConfigSize = cfg.bytes := by
    rw [← DipConfigState.bytes_length cfg, List.take_left]
  rw [record] at read handle₂
  rw [DipConfigState.bytes_length] at handle₂
  have file₂ : (view flash₂).file .dip = some (cfg.bytes ++ rest) := by rw [same, file]
  have loaded : DipConfigState.ofBytes (readInto s.dipCfgState.bytes cfg.bytes dipConfigSize) =
      cfg := by
    rw [readInto_full cfg.bytes_length, DipConfigState.ofBytes_bytes]
  have positive : ¬fd < 0 := Int.not_lt.mpr opens
  by_cases frag : cfg.mode = modeFrag
  case neg =>
    refine ⟨port.deleteFile .dip (port.closeFile fd flash₂), ?_, by
      rw [stores.delete, FileStore.delete_self]⟩
    simp only [diConfigLoad, opened, read, positive, loaded, frag, DipConfigState.bytes_length,
      if_true, if_false]
  case pos =>
    obtain ⟨flash₃, list_loaded⟩ := diConfigLoadList_saved stores
      { s with dipCfgState := cfg, flash := flash₂ } dipConfigSize handle₂ file₂
      (listed frag) (size_le frag)
    refine ⟨port.deleteFile .dip (port.closeFile fd flash₃), ?_, by
      rw [stores.delete, FileStore.delete_self]⟩
    simp only [diConfigLoad, opened, read, positive, loaded, frag, DipConfigState.bytes_length,
      list_loaded, if_true, if_false]

/-- The state of the NAND emulation is saved. -/
theorem ffsConfigSave_saved : ∃ flash rest,
    ffsConfigSave port s = ((ffsConfigSize : Int), { s with flash := flash }) ∧
    (view flash).file .ffs = some (s.ffsCfgState.bytes ++ rest) ∧
    ∀ other ≠ .ffs, (view flash).file other = (view s.flash).file other := by
  obtain ⟨fd, flash₁, flash₂, rest, opened, opens, written, -, file, frame⟩ :=
    stores.written .ffs s.ffsCfgState.bytes s.flash
  have positive : ¬fd < 0 := Int.not_lt.mpr opens
  refine ⟨port.closeFile fd flash₂, rest, ?_, ?_, ?_⟩
  · simp only [ffsConfigSave, opened, written, positive, if_false, FfsConfigState.bytes_length,
      ne_eq, not_true_eq_false]
  · rw [stores.close, FileStore.seat_file, file]
  · rwa [stores.close, FileStore.seat_file]

/-- Without a record nothing is loaded. -/
theorem ffsConfigLoad_missing (missing : (view s.flash).file .ffs = none) : ∃ ret flash,
    ffsConfigLoad port s = (ret, { s with flash := flash }) ∧ ret < 0 ∧
    view flash = view s.flash := by
  obtain ⟨fails, same⟩ := stores.missing .ffs .read s.flash missing
  obtain ⟨fd, flash, opened⟩ : ∃ fd flash,
    port.openFile .ffs .read s.flash = (fd, flash) := ⟨_, _, rfl⟩
  rw [opened] at fails same
  refine ⟨fd, flash, ?_, fails, same⟩
  simp only [ffsConfigLoad, opened, fails, if_true]

/-- A file is loaded if it is long enough, and deleted. -/
theorem ffsConfigLoad_found {contents : List UInt8}
    (file : (view s.flash).file .ffs = some contents) : ∃ flash,
    ffsConfigLoad port s =
      (if ffsConfigSize ≤ contents.length then (ffsConfigSize : Int) else -1, { s with
        ffsCfgState :=
          .ofBytes (readInto s.ffsCfgState.bytes (contents.take ffsConfigSize) ffsConfigSize)
        flash := flash }) ∧
    (view flash).file .ffs = none ∧
    ∀ other ≠ .ffs, (view flash).file other = (view s.flash).file other := by
  obtain ⟨fd, flash₁, flash₂, opened, opens, read, -, same⟩ := stores.fetched file ffsConfigSize
  have positive : ¬fd < 0 := Int.not_lt.mpr opens
  refine ⟨port.deleteFile .ffs (port.closeFile fd flash₂), ?_, ?_, fun other distinct => ?_⟩
  · simp only [ffsConfigLoad, opened, read, positive, if_false, List.length_take]
    by_cases full : ffsConfigSize ≤ contents.length
    · simp only [Nat.min_eq_left full, if_pos full, ne_eq, not_true_eq_false, if_false]
    · have short : ((min ffsConfigSize contents.length : Nat) : Int) ≠ ffsConfigSize := by omega
      simp only [if_neg full, if_pos short]
  · rw [stores.delete, FileStore.delete_self]
  · rw [stores.delete, FileStore.delete_other _ distinct, stores.close, FileStore.seat_file, same]

end Files

/-! ## An outside without faults -/

/-- Every device is there, and every call succeeds. -/
def DrivePort.ready (storage : Storage Unit) (memory : UInt32 → Mem) :
    DrivePort Unit (FileStore CfgFile) where
  storage := storage
  handleCmd _ out _ _ := (0, out.getD fun _ => 0, ())
  handleInitDrive := id
  readHash _ := (0, ())
  setReadctrl := id
  readctrl _ := 0
  readDvd out _ _ _ := (0, out, ())
  readWod out _ _ _ := (0, out, ())
  customCmd _ _ := (0, [], ())
  memory address _ := memory address
  virtToPhys := id
  wbfsOpenDevice _ _ := (3, ())
  wbfsOpenDisc _ _ _ := (0, ())
  wbfsReadDisc _ _ _ out _ := (0, out, ())
  closeDevice _ := id
  isfsGetMode _ := (0, 0, .replicate 64 0, ())
  isfsSetMode _ _ := id
  fatMount _ _ := id
  fatGetPartition _ _ := (none, ())
  openFile name _ flash :=
    if (flash.file name).isSome then (4, flash.seat 4 (some (name, 0))) else (-106, flash)
  readFile fd len flash := ((flash.readAt fd len).length, flash.readAt fd len, flash.read fd len)
  writeFile fd bytes flash := (bytes.length, flash.write fd bytes)
  closeFile fd flash := flash.seat fd none
  createFile name flash := flash.create name
  deleteFile name flash := flash.delete name

/-- The flash of the port that is ready works. -/
theorem DrivePort.ready_stores (storage : Storage Unit) (memory : UInt32 → Mem) :
    (DrivePort.ready storage memory).Stores id where
  missing name mode flash missing := by
    have missing : flash.file name = none := missing
    simp [ready, missing]
  found name mode flash found := by
    have found : flash.file name ≠ none := found
    simp [ready, Option.isSome_iff_ne_none.mpr found]
  read _ _ _ _ := ⟨rfl, rfl, rfl⟩
  write _ _ _ _ := ⟨rfl, rfl⟩
  close _ _ := rfl
  create _ _ := rfl
  delete _ _ := rfl

/-- A flash without configuration files. -/
def blankFlash : FileStore CfgFile := ⟨fun _ => none, fun _ => none⟩

end D2xCios.Dip
