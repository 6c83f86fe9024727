import D2xCios.Dip.Flash
import D2xCios.Dip.Frame

/-!
# Stealth

While a title runs and ES asks for nothing, no command reveals that the plugin is
there. The commands of the drive leave the emulation alone, and those of the
plugin reach the original handler as if the plugin did not know them.
-/

namespace D2xCios.Dip

open D2xCios.Lib

variable {σ φ : Type} (port : DrivePort σ φ)

/-- `Stealth_CheckRunningTitle` blocks the request, and `Stealth_CheckEsRequest` does. -/
def Request.Stealthy (req : Request) : Prop := req.runningTitle ≠ 0 ∧ req.esRequest = 0

/-- One command: the error is cleared, and what follows is quiet. -/
theorem diEmulateCmd_quiet (req : Request) (out : Mem) (s : Drive σ φ)
    (stealthy : req.Stealthy) : Quiet s (diEmulateCmd port req out s).drive := by
  have dispatched : ∀ s, Quiet s (diDispatch port req out s).drive := by
    intro s
    cases custom : req.command.custom with
    | false => exact diDispatch_quiet port req out s custom
    | true =>
      rw [diDispatch_refused port req out s custom stealthy.1 stealthy.2]
      exact diHandleCmd_quiet port req out s
  unfold diEmulateCmd
  split
  · exact dispatched s
  · exact (Quiet.setError s 0).trans (dispatched _)

/-- Any number of commands. -/
theorem runCmds_quiet (cmds : List (Request × Mem)) (s : Drive σ φ)
    (stealthy : ∀ cmd, cmd ∈ cmds → cmd.1.Stealthy) : Quiet s (runCmds port cmds s) := by
  induction cmds generalizing s with
  | nil => exact .refl s
  | cons cmd rest ih =>
    have first := diEmulateCmd_quiet port cmd.1 cmd.2 s (stealthy cmd List.mem_cons_self)
    exact first.trans (ih _ fun later member => stealthy later (List.mem_cons_of_mem _ member))

/-- A custom command that is not recognized: the original handler answers it. -/
theorem diEmulateCmd_refused (req : Request) (out : Mem) (s : Drive σ φ)
    (stealthy : req.Stealthy) (custom : req.command.custom = true) :
    diEmulateCmd port req out s = diHandleCmd port req out (s.setError 0) := by
  have notError : req.command ≠ .reqerror := by
    intro command
    simp [command, DiCommand.custom] at custom
  rw [diEmulateCmd, if_neg notError,
    diDispatch_refused port req out _ custom stealthy.1 stealthy.2]

/-- While a title runs, no sequence of commands changes the emulation or makes a setting of the
loader, and after any of them a custom command is the original handler's alone. -/
theorem title_sees_no_emulation (s : Drive σ φ) (cmds : List (Request × Mem))
    (stealthy : ∀ cmd, cmd ∈ cmds → cmd.1.Stealthy) :
    Quiet s (runCmds port cmds s) ∧
    ∀ req out, req.Stealthy → req.command.custom = true →
      let before := runCmds port cmds s
      let answered := port.handleCmd req.inbuf (some out) req.size before.io
      diEmulateCmd port req out before =
        ⟨answered.1, answered.2.1,
          { before with config := { before.config with error := 0 }, io := answered.2.2 }⟩ :=
  ⟨runCmds_quiet port cmds s stealthy, fun req out stealthy custom =>
    diEmulateCmd_refused port req out _ stealthy custom⟩

/-- A request of a game, with the command `code`. -/
def titleRequest (code : UInt32) : Request where
  inbuf i := if i = 0 then code <<< 24 else 0
  size := 32
  runningTitle := 0x52534245
  esRequest := 0

/-- A request of a title gets the stealthy answer. -/
theorem titleRequest_stealthy (code : UInt32) : (titleRequest code).Stealthy :=
  ⟨show (0x52534245 : UInt32) ≠ 0 by decide, rfl⟩

/-- A game that reads the disc ID of a WBFS disc and then asks for the mode. -/
theorem title_sees_no_emulation_modeGet :
    let port := DrivePort.ready (.holding (fun _ _ => 0) 512) fun _ _ => 0
    let s := (Drive.boot () blankFlash).setMode (modeWbfs ||| modeCrypt)
    let before := runCmds port [(titleRequest 0x70, fun _ => 0)] s
    before.chkMode modeWbfs = true ∧
    (diEmulateCmd port (titleRequest 0xFA) (fun _ => 7) before).out = fun _ => 7 := by
  intro port s before
  obtain ⟨quiet, refused⟩ := title_sees_no_emulation port s [(titleRequest 0x70, fun _ => 0)]
    fun cmd member => by
      rw [List.mem_singleton.mp member]
      exact titleRequest_stealthy 0x70
  refine ⟨quiet.wbfsBit.trans (by decide), ?_⟩
  rw [refused (titleRequest 0xFA) (fun _ => 7) (titleRequest_stealthy 0xFA) (by decide)]
  rfl

end D2xCios.Dip
