import D2xCios.Dip.Drive

/-!
# The command handler

`DI_EmulateCmd`, one definition for each branch of its switch. A custom command
goes to the original handler like any other command while a title is running;
the one that saves the configuration goes there unless ES sent it.
-/

namespace D2xCios.Dip

open D2xCios.Lib

/-- A command as it arrives: the request, the size of the reply buffer, and what
`Swi_GetRunningTitle` and `Swi_GetEsRequest` say at that time. -/
structure Request where
  inbuf : Cells UInt32
  size : UInt32
  runningTitle : UInt32
  esRequest : UInt32

/-- The command of a request. -/
def Request.command (req : Request) : DiCommand := .ofCode (req.inbuf 0 >>> 24)

/-- What a command leaves behind: its result, the reply buffer and the plugin. -/
structure Reply (σ φ : Type) where
  ret : Int
  out : Mem
  drive : Drive σ φ

variable {σ φ : Type} (port : DrivePort σ φ)

/-- A result with the reply buffer and the plugin left alone. -/
def answer (ret : Int) (out : Mem) (s : Drive σ φ) : Reply σ φ := ⟨ret, out, s⟩

/-- A result word for the reply buffer. -/
def answerWord (word : UInt32) (out : Mem) (s : Drive σ φ) : Reply σ φ :=
  ⟨0, out.overlay 0 (bytes32 word), s⟩

/-- `DI_HandleCmd` on the request as it came. -/
def diHandleCmd (req : Request) (out : Mem) (s : Drive σ φ) : Reply σ φ :=
  let (ret, out, io) := port.handleCmd req.inbuf (some out) req.size s.io
  ⟨ret, out, { s with io := io }⟩

/-- The disc is not the drive's own, or the drive is in DVD-ROM mode. -/
def Drive.emulated (s : Drive σ φ) : Bool := s.chkMode (modeDvdrom ||| modeEmul)

/-! ## Commands of the drive -/

/-- `DI_StopMotor`, without a reply buffer. -/
def diStopMotor (s : Drive σ φ) : Drive σ φ :=
  let dic : Cells UInt32 := fun i => if i = 0 then (0xE3 : UInt32) <<< 24 else 0
  { s with io := (port.handleCmd dic none 0 s.io).2.2 }

/-- `IOCTL_DI_RESET` -/
def diReset (req : Request) (out : Mem) (s : Drive σ φ) : Reply σ φ :=
  if s.config.noreset ≠ 0 then answer 0 out s
  else
    let s := diResetConfig s
    if s.chkMode modeEmul then
      let s := diStopMotor port s
      answer 0 out { s with config := { s.config with cover := s.config.cover ||| 4 } }
    else diHandleCmd port req out s

/-- `IOCTL_DI_READID` on the drive itself, which is not the original disc when it fails. -/
def diReadidDrive (req : Request) (out : Mem) (s : Drive σ φ) : Reply σ φ :=
  let r := diHandleCmd port req out s
  if r.ret ≠ 0 then { r with drive := r.drive.setMode modeDvdrom } else r

/-- The check of the disc type behind a successful `IOCTL_DI_READID`. -/
def diReadidType (r : Reply σ φ) : Reply σ φ :=
  if r.ret ≠ 0 then r
  else if be32 r.out 28 = gcMagic then { r with drive := r.drive.setType .dvd9 }
  else { r with drive := diCheckDisc port r.drive }

/-- `IOCTL_DI_READID` -/
def diReadid (req : Request) (out : Mem) (s : Drive σ φ) : Reply σ φ :=
  let offset := s.config.offset0 ||| s.config.offset1
  let r := if s.chkMode modeEmul then answer 0 out s else diReadidDrive port req out s
  if r.drive.emulated ∨ offset ≠ 0 then
    let (ret, out, s) := diReadDiscId port r.out req.size r.drive
    diReadidType port ⟨ret, out, s⟩
  else diReadidType port r

/-- An unencrypted read. -/
def diRead (len offset : UInt32) (out : Mem) (s : Drive σ φ) : Reply σ φ :=
  let (ret, out, s) := diReadUnencrypted port out len offset s
  ⟨ret, out, s⟩

/-- `IOCTL_DI_LOW_READ` -/
def diLowRead (req : Request) (out : Mem) (s : Drive σ φ) : Reply σ φ :=
  if s.chkMode modeCrypt then diRead port (req.inbuf 1) (req.inbuf 2) out s
  else diHandleCmd port req out s

/-- `IOCTL_DI_READ_D0` -/
def diReadD0 (req : Request) (out : Mem) (s : Drive σ φ) : Reply σ φ :=
  diRead port (req.inbuf 1 <<< 11) (req.inbuf 2 <<< 9) out s

/-- `IOCTL_DI_OFFSET` -/
def diOffset (req : Request) (out : Mem) (s : Drive σ φ) : Reply σ φ :=
  if s.emulated then
    let offset := (req.inbuf 1 <<< 30) ||| req.inbuf 2
    answer 0 out { s with config := { s.config with offset1 := offset &&& 0xFFFF8000 } }
  else diHandleCmd port req out s

/-- `IOCTL_DI_SEEK` and `IOCTL_DI_AUDIO_CONFIG`. -/
def diUnlessEmulated (req : Request) (out : Mem) (s : Drive σ φ) : Reply σ φ :=
  if s.emulated then answer 0 out s else diHandleCmd port req out s

/-- `IOCTL_DI_REPORT_KEY` -/
def diReportKey (req : Request) (out : Mem) (s : Drive σ φ) : Reply σ φ :=
  if s.emulated then answer dipEio out (s.setError errorWrongDisc)
  else diHandleCmd port req out s

/-- `IOCTL_DI_REQCOVER` -/
def diReqcover (req : Request) (out : Mem) (s : Drive σ φ) : Reply σ φ :=
  if s.chkMode modeEmul then answerWord 0 out s else diHandleCmd port req out s

/-- `IOCTL_DI_REQERROR` -/
def diReqerror (req : Request) (out : Mem) (s : Drive σ φ) : Reply σ φ :=
  if s.chkMode modeEmul ∨ s.config.error ≠ 0 then answerWord s.config.error out s
  else diHandleCmd port req out s

/-! ## Custom commands -/

/-- `IOCTL_DI_CRYPT_SET` behind its check. -/
def diCryptSet (req : Request) (out : Mem) (s : Drive σ φ) : Reply σ φ :=
  answer 0 out (if req.inbuf 1 ≠ 0 then s.setMode modeCrypt else s.delMode modeCrypt)

/-- `IOCTL_DI_WBFS_SET` behind its check. -/
def diWbfsSet (req : Request) (out : Mem) (s : Drive σ φ) : Reply σ φ :=
  let device := req.inbuf 1
  let s := (wbfsClose port s).delMode modeWbfs
  if device = 0 then answer 0 out s
  else
    let discid := (bytes32 (req.inbuf 2) ++ bytes32 (req.inbuf 3)).take 6
    let (ret, s) := wbfsOpen port (device - 1) discid s
    if ret ≠ 0 then answer ret out s
    else
      let s := s.setMode modeWbfs
      answer ret out { s with dipCfgState := ⟨s.config.mode, device, 0⟩ }

/-- `IOCTL_DI_FRAG_SET` behind its check. -/
def diFragSet (req : Request) (out : Mem) (s : Drive σ φ) : Reply σ φ :=
  let device := req.inbuf 1
  let fraglist := req.inbuf 2
  let size := req.inbuf 3
  let s := Drive.delMode modeFrag { s with frag := fragClose s.frag }
  if device ≠ 0 ∧ fraglist ≠ 0 ∧ size ≠ 0 then
    let source := port.memory (port.virtToPhys fraglist) s.io
    let (ret, frag, io) := fragInit port.storage device.toNat (some source) size.toNat s.frag s.io
    let s := { s with frag := frag, io := io }
    let out := out.overlay 0 (bytes32 (UInt32.ofInt ret))
    if ret ≠ 0 then answer 0 out s
    else
      let s := s.setMode modeFrag
      answer 0 out { s with dipCfgState := ⟨s.config.mode, device, size⟩ }
  else answer 0 out s

/-- `IOCTL_DI_SAVE_CONFIG` behind its check, the part about nand emulation: a result that is
negative ends the command. -/
def diSaveFfs (s : Drive σ φ) : Int × Drive σ φ :=
  let (ret, mode, path, io) := port.isfsGetMode s.io
  if ret < 0 then (ret, { s with io := io })
  else
    let s := { s with io := io, ffsCfgState := { s.ffsCfgState with mode := mode, path := path } }
    if mode = 0 then (ret, s)
    else
      let (partition, io) := port.fatGetPartition (ffsDevice mode) s.io
      let s := { s with
        io := port.isfsSetMode 0 [] io
        ffsCfgState := { s.ffsCfgState with
          partition := partition.getD s.ffsCfgState.partition } }
      ffsConfigSave port s

/-- `IOCTL_DI_SAVE_CONFIG` behind its check. -/
def diSaveConfig (out : Mem) (s : Drive σ φ) : Reply σ φ :=
  let (ret, s) := diSaveFfs port s
  if ret < 0 then answer ret out s
  else if s.chkMode modeEmul then
    let (ret, s) := diConfigSave port s
    answer (if ret < 0 then ret else 0) out s
  else answer 0 out s

/-- `IOCTL_DI_CUSTOMCMD` behind its check. -/
def diCustomcmd (req : Request) (out : Mem) (s : Drive σ φ) : Reply σ φ :=
  let buffer := port.memory (port.virtToPhys (req.inbuf 1)) s.io
  let (ret, regs, io) := port.customCmd buffer s.io
  ⟨ret, out.overlay 0 regs, { s with io := io }⟩

/-- A custom command, which is not recognized while a title is running. -/
def unlessTitle (req : Request) (out : Mem) (s : Drive σ φ) (custom : Reply σ φ) : Reply σ φ :=
  if req.runningTitle ≠ 0 then diHandleCmd port req out s else custom

/-! ## The handler -/

/-- The switch of `DI_EmulateCmd`. -/
def diDispatch (req : Request) (out : Mem) (s : Drive σ φ) : Reply σ φ :=
  match req.command with
  | .reset => diReset port req out s
  | .readid => diReadid port req out s
  | .lowRead => diLowRead port req out s
  | .unencread => diRead port (req.inbuf 1) (req.inbuf 2) out s
  | .readA8 => diRead port (req.inbuf 1) (req.inbuf 2) out s
  | .readD0 => diReadD0 port req out s
  | .readbca => diRead port req.size 0x40 out s
  | .offset => diOffset port req out s
  | .seek => diUnlessEmulated port req out s
  | .audioConfig => diUnlessEmulated port req out s
  | .reportKey => diReportKey port req out s
  | .reqcover => diReqcover port req out s
  | .reqerror => diReqerror port req out s
  | .offsetSet => unlessTitle port req out s
      (answer 0 out { s with config := { s.config with offset0 := req.inbuf 1 } })
  | .offsetGet => unlessTitle port req out s (answerWord s.config.offset0 out s)
  | .cryptSet => unlessTitle port req out s (diCryptSet req out s)
  | .cryptGet => unlessTitle port req out s (answerWord (s.config.mode &&& modeCrypt) out s)
  | .wbfsSet => unlessTitle port req out s (diWbfsSet port req out s)
  | .wbfsGet => unlessTitle port req out s (answerWord (s.config.mode &&& modeWbfs) out s)
  | .fragSet => unlessTitle port req out s (diFragSet port req out s)
  | .modeGet => unlessTitle port req out s (answerWord s.config.mode out s)
  | .saveConfig =>
    if req.esRequest = 0 then diHandleCmd port req out s else diSaveConfig port out s
  | .resetDisable => unlessTitle port req out s
      (answer 0 out { s with config := { s.config with noreset := req.inbuf 1 } })
  | .customcmd => unlessTitle port req out s (diCustomcmd port req out s)
  | .other => diHandleCmd port req out s

/-- `DI_EmulateCmd` -/
def diEmulateCmd (req : Request) (out : Mem) (s : Drive σ φ) : Reply σ φ :=
  diDispatch port req out (if req.command = .reqerror then s else s.setError 0)

/-- A sequence of commands, each with its reply buffer. -/
def runCmds (cmds : List (Request × Mem)) (s : Drive σ φ) : Drive σ φ :=
  cmds.foldl (fun s cmd => (diEmulateCmd port cmd.1 cmd.2 s).drive) s

end D2xCios.Dip
