import D2xCios.FatFs.Removal

/-!
# Listing a directory

`f_readdir` comes to the next entry of a file, collects the long name in front of it, and reports it
in the OEM code page. A listing of a directory has each of its files once and in order, and with its
long name if that has no more than 253 characters, if all of these are in the code page, and if the
buffer of the caller is large enough.
-/

namespace D2xCios.FatFs

open D2xCios.Lib
open D2xCios.Fat.Wrapper (FError)

variable (g : Geometry) (faults : Faults)

/-! ## The source -/

/-- `dir_read`, with the long name buffer. -/
def dirRead (dj : Dir) (lfn : Cells WChar) : FsM (Dir × Cells WChar) := do
  let found ← lookLoop g faults readLook true 65536 dj ⟨⟨0xFF, 0xFF, dj.lfnIdx⟩, lfn⟩
  return ({ found.1 with lfnIdx := found.2.1 }, found.2.2)

/-- `FR_NO_FILE` is the end of a directory. -/
def untilEnd {α : Type} (x : FsM α) : FsM (Option α) :=
  tryCatch (x >>= fun a => return some a) fun e => if e = .noFile then return none else throw e

/-- `FILINFO`; `lfsize` is 0 if there is no buffer for long names. -/
@[ext]
structure FilInfo where
  fsize : Nat
  fdate : Nat
  ftime : Nat
  fattrib : UInt8
  fname : List UInt8
  lfname : List UInt8
  lfsize : Nat

/-- A character of a short name, in lower case if the entry has the flag for it. -/
def shownChar (lower : Bool) (c : UInt8) : UInt8 :=
  if lower ∧ 0x41 ≤ c ∧ c ≤ 0x5A then c + 0x20 else c

/-- The loop of `get_fileinfo` over the name body. -/
def nameBody (dir : Mem) : List UInt8 :=
  (((List.range 8).map dir).takeWhile fun c => c ≠ 0x20).map fun c =>
    shownChar (dir 12 &&& 0x08 ≠ 0) (if c = 0x05 then 0xE5 else c)

/-- The part of `get_fileinfo` for the name extension. -/
def nameExt (dir : Mem) : List UInt8 :=
  if dir 8 ≠ 0x20 then
    0x2E :: ((((List.range 3).map fun i => dir (8 + i)).takeWhile fun c => c ≠ 0x20).map
      (shownChar (dir 12 &&& 0x10 ≠ 0)))
  else []

/-- The loop of `get_fileinfo` over the long name from `p` on, with room for `room` characters:
there is none if one of them cannot be converted, or if there is no room for it. -/
def lfnameLoop (lfn : Cells WChar) (room p : Nat) : Option (List UInt8) :=
  if lfn p = 0 then some []
  else if ffConvert (lfn p) false = 0 then none
  else
    match room with
    | 0 => none
    | room + 1 => (lfnameLoop lfn room (p + 1)).map ((ffConvert (lfn p) false).toUInt8 :: ·)

/-- `get_fileinfo` -/
def getFileinfo (dj : Dir) (lfn : Cells WChar) (fno : FilInfo) : FsM FilInfo := do
  let dir := entryAt (← get).win dj.dir
  let fno := if dj.sect ≠ 0 then
      { fno with
        fname := nameBody dir ++ nameExt dir, fattrib := dir 11, fsize := le32 dir 28
        fdate := le16 dir 24, ftime := le16 dir 22 }
    else { fno with fname := [] }
  if fno.lfsize ≠ 0 then
    return { fno with
      lfname :=
        if dj.sect ≠ 0 ∧ dj.lfnIdx ≠ 0xFFFF then (lfnameLoop lfn (fno.lfsize - 1) 0).getD []
        else [] }
  else return fno

/-- `f_readdir` of an object of the volume. The long name buffer is memory from the heap. -/
def fReaddir (buffer : Option (Cells WChar)) (dj : Dir) (fno : FilInfo) : FsM (Dir × FilInfo) :=
  match buffer with
  | none => throw .notEnoughCore
  | some lfn => do
    let read ← untilEnd (dirRead g faults dj lfn)
    let read := read.getD ({ dj with sect := 0 }, lfn)
    let fno ← getFileinfo read.1 read.2 fno
    let next ← untilEnd (dirNext g faults read.1 false)
    return (next.getD { read.1 with sect := 0 }, fno)

/-- The calls of `f_readdir` up to the one that reports no name, with the buffer of each. -/
def listLoop (heap : Nat → Option (Cells WChar)) :
    (fuel : Nat) → (calls : Nat) → Dir → FilInfo → FsM (List FilInfo)
  | 0, _, _, _ => return []
  | fuel + 1, calls, dj, fno => do
    let r ← fReaddir g faults (heap calls) dj fno
    if r.2.fname.headD 0 = 0 then return []
    else
      let rest ← listLoop heap fuel (calls + 1) r.1 r.2
      return r.2 :: rest

/-- `dir_sdi`, with which `f_opendir` ends, and `f_readdir` up to the end. -/
def listDir (heap : Nat → Option (Cells WChar)) (dj : Dir) (fno : FilInfo) :
    FsM (List FilInfo) := do
  let dj ← dirSdi g faults dj 0
  listLoop g faults heap 65537 0 dj fno

/-! ## What is reported -/

/-- An entry that `dir_read` stops at. -/
def Reported (e : Mem) : Prop := ¬ (Void e ∨ e 0 = 0x2E) ∧ ¬ IsLfn e

instance (e : Mem) : Decidable (Reported e) := inferInstanceAs (Decidable (_ ∧ _))

/-- Such entries with their places, the first entry being number `k`. -/
def filesFrom : (k : Nat) → List Mem → List (Nat × Mem)
  | _, [] => []
  | k, e :: es => if Reported e then (k, e) :: filesFrom (k + 1) es else filesFrom (k + 1) es

/-- The Unicode character of a character of the OEM code page. -/
def oemChar (c : UInt8) : WChar := ffConvert c.toUInt16 true

/-- A long name can be reported in a buffer for `lfsize` characters, with the end of it. -/
def Convertible (lfsize : Nat) (name : List WChar) : Prop :=
  (∀ c ∈ name, ∃ oem, oemChar oem = c) ∧ name.length < lfsize

/-- Where a long name ends, by the first one of its entries. -/
def endOf : List Mem → Nat
  | [] => 0
  | e :: rest => 13 * rest.length + (upToEnd (lfnChars e)).length

/-- In front of the entry `m` there are those of a long name that can be reported. -/
def LongAt (lfsize : Nat) (es : List Mem) (m : Nat) (e : Mem) (segs : List Mem) : Prop :=
  segs <:+ es.take m ∧ LongRun (sumSfn e) 0 segs ∧ endOf segs < 254 ∧
    Convertible lfsize (nameOf segs)

/-- What `f_readdir` reports of a file: what is in its entry, and its long name if it has one that
can be reported. If only the first entry of the name has the end of it, that is one of at most 253
characters. -/
structure Reports (lfsize : Nat) (es : List Mem) (m : Nat) (e : Mem) (info : FilInfo) : Prop where
  fname : info.fname = nameBody e ++ nameExt e
  fattrib : info.fattrib = e 11
  fsize : info.fsize = le32 e 28
  fdate : info.fdate = le16 e 24
  ftime : info.ftime = le16 e 22
  room : info.lfsize = lfsize
  long : ∀ segs, LongAt lfsize es m e segs → info.lfname.map oemChar = nameOf segs
  whole : ∀ segs, segs <:+ es.take m → LongRun (sumSfn e) 0 segs → Whole segs →
    (nameOf segs).length < 254 → Convertible lfsize (nameOf segs) →
    info.lfname.map oemChar = nameOf segs
  blank : (∀ segs, ¬ LongAt lfsize es m e segs) → info.lfname = []

/-- The short name of a file is not blank. -/
def Shown (p : Nat × Mem) : Prop := nameBody p.2 ++ nameExt p.2 ≠ []

instance (p : Nat × Mem) : Decidable (Shown p) := inferInstanceAs (Decidable (_ ≠ _))

/-- What a listing of a directory has to report: the files up to the first one with a blank name,
which is as the end. -/
def Listed (lfsize : Nat) (es : List Mem) (files : List (Nat × Mem)) (infos : List FilInfo) :
    Prop :=
  List.Forall₂ (fun p info => Reports lfsize es p.1 p.2 info)
    (files.takeWhile fun p => Shown p) infos

variable {g faults} {s : Fatfs} {cells : List Nat} {dj : Dir} {sclust : Nat}
  {e : Mem} {es as bs segs : List Mem} {k m p lfsize : Nat} {st next : ReadState}
  {name : List WChar} {sum : UInt8} {ord : Nat} {lfn : Cells WChar} {fno info info' : FilInfo}

theorem filesFrom_append : filesFrom k (as ++ bs) =
    filesFrom k as ++ filesFrom (k + as.length) bs := by
  induction as generalizing k with
  | nil => rfl
  | cons a as ih =>
    rw [List.cons_append, filesFrom, filesFrom, ih, List.length_cons, Nat.add_right_comm k 1,
      Nat.add_assoc]
    split
    · rfl
    · rfl

/-- A list in which nothing is reported has no files. -/
theorem filesFrom_none (none : ∀ e ∈ es, ¬ Reported e) : filesFrom k es = [] := by
  induction es generalizing k with
  | nil => rfl
  | cons e es ih =>
    rw [filesFrom, if_neg (none e List.mem_cons_self)]
    exact ih fun e member => none e (List.mem_cons_of_mem _ member)

/-- A part of a long name is picked up. -/
theorem readLook_lfn (live : ¬ (Void e ∨ e 0 = 0x2E)) (isLfn : IsLfn e) :
    readLook k e st = .inl {
      toLfnState := lfnStep k e st.toLfnState (pickLfn st.lfn e).2
      lfn := if Continues e (lfnStart k e st.toLfnState) then (pickLfn st.lfn e).1
        else st.lfn } := by
  unfold readLook
  rw [if_neg live, if_pos isLfn]

/-- A file is found, with the number of its long name if one was picked up for it. -/
theorem readLook_file (file : Reported e) : readLook k e st =
    .inr (if st.ord ≠ 0 ∨ st.sum ≠ sumSfn e then 0xFFFF else st.lfnIdx, st.lfn) := by
  unfold readLook
  rw [if_neg file.1, if_neg file.2]

/-- Anything else is passed over. -/
theorem readLook_other (other : ¬ Reported e) : ∃ next, readLook k e st = .inl next := by
  by_cases void : Void e ∨ e 0 = 0x2E
  · exact ⟨_, if_pos void⟩
  · exact ⟨_, readLook_lfn void (not_not.1 fun isSfn => other ⟨void, isSfn⟩)⟩

/-- An entry that is passed over is not reported. -/
theorem not_reported_of_look (look : readLook k e st = .inl next) : ¬ Reported e := fun file => by
  rw [readLook_file file] at look
  cases look

/-- An entry at which the search stops is reported. -/
theorem reported_of_look {found : Nat × Cells WChar} (look : readLook k e st = .inr found) :
    Reported e := by
  by_contra other
  obtain ⟨next, seen⟩ : ∃ next, readLook k e st = .inl next := readLook_other other
  rw [seen] at look
  cases look

/-- What has been looked through is not listed. -/
theorem readScan_none (seen : scan readLook k es st = .inl next) : ∀ e ∈ es, ¬ Reported e := by
  induction es generalizing k st with
  | nil => exact fun _ member => absurd member List.not_mem_nil
  | cons e es ih =>
    cases look : readLook k e st with
    | inl next' =>
      rw [scan_next look] at seen
      exact List.forall_mem_cons.2 ⟨not_reported_of_look look, ih seen⟩
    | inr found =>
      rw [scan_stop look] at seen
      cases seen

/-! ## Collecting a long name -/

/-- The entries that `dir_read` accepts. -/
def pickable (e : Mem) : Bool := (pickLfn (fun _ => 0) e).2

/-- Whether a part is picked up depends on its characters and its number. -/
theorem pickLfn_pickable (lfn : Cells WChar) (e : Mem) : (pickLfn lfn e).2 = pickable e :=
  Bool.eq_iff_iff.2 ((pickLfn_spec lfn e).1.trans (pickLfn_spec _ e).1.symm)

theorem stored_pos : 1 ≤ stored (lfnChars e) := by
  rw [lfnChars, lfnOfs, List.map_cons, stored]
  split
  · exact Nat.le_refl 1
  · exact Nat.le_add_left _ _

/-- The characters of a part that is picked up end in the padding. -/
theorem pickable_padded (ok : pickable e = true) : Padded (lfnChars e) :=
  ((pickLfn_spec _ e).1.1 ok).1

/-- The number of a part that is picked up is not 0. -/
theorem pickable_number (ok : pickable e = true) : lfnNumber e ≠ 0 := by
  have fits := ((pickLfn_spec _ e).1.1 ok).2.1
  intro none
  have same := (lfnNumber_bits e).2 (by rw [none]; decide)
  rw [same, none] at fits
  exact absurd (Nat.le_trans (Nat.le_add_right _ _) fits) (by decide)

/-- An entry that is accepted is one of the first 20, but for numbers that none can have. -/
theorem pickable_le (ok : pickable e = true) (small : (lfnNumber e).toNat < 64) :
    (lfnNumber e).toNat ≤ 20 := by
  have fits := ((pickLfn_spec _ e).1.1 ok).2.1
  have positive : 1 ≤ (lfnNumber e).toNat :=
    Nat.pos_of_ne_zero fun zero => pickable_number ok (UInt8.toNat_inj.1 zero)
  have some := stored_pos (e := e)
  rw [(lfnNumber_bits e).2 small, lfnOffset_pos positive] at fits
  omega

/-- What `dir_read` knows in front of an entry: the buffer holds the rest of a long name too. -/
structure ReadTracks (es : List Mem) (k : Nat) (st : ReadState) : Prop extends
    Tracks pickable es k st.toLfnState where
  held : st.ord.toNat ≤ 20 →
    Spells st.lfn (13 * st.ord.toNat) (upToEnd (textOf ((es.take k).drop st.lfnIdx)))

/-- A suffix is what is left behind the place where it begins. -/
theorem drop_of_suffix {α : Type} {l segs : List α} {i : Nat} (suffix : segs <:+ l)
    (place : i + segs.length = l.length) : l.drop i = segs := by
  obtain ⟨front, rfl⟩ := suffix
  rw [List.length_append] at place
  exact List.drop_left' (by omega)

/-- One entry more. -/
theorem ReadTracks.look (tracks : ReadTracks es k st) (k_lt : k < es.length)
    (look : readLook k es[k] st = .inl next) : ReadTracks es (k + 1) next := by
  have length : (es.take k).length = k := by rw [List.length_take]; omega
  have length' : (es.take (k + 1)).length = k + 1 := by rw [List.length_take]; omega
  by_cases void : Void es[k] ∨ es[k] 0 = 0x2E
  · obtain rfl := Sum.inl.inj ((if_pos void).symm.trans look)
    have none : ¬ (0xFF : UInt8).toNat ≤ 20 := by decide
    refine ⟨.behind k_lt (fun live isLfn ok => ?_) rfl, fun few => absurd few none⟩
    have dot := void.resolve_left live
    have number : lfnNumber es[k] = 0x2E := by rw [lfnNumber, dot]; rfl
    have small := pickable_le ok (by rw [number]; decide)
    rw [number] at small
    exact absurd small (by decide)
  by_cases isLfn : IsLfn es[k]
  · rw [readLook_lfn void isLfn, pickLfn_pickable] at look
    obtain rfl := Sum.inl.inj look
    have after := tracks.toTracks.step (fun _ => pickable_padded) (fun _ => pickable_number) k_lt
      (not_or.1 void).1 isLfn
    refine ⟨after, fun few => ?_⟩
    dsimp only at few ⊢
    generalize lfnStep k es[k] st.toLfnState (pickable es[k]) = st' at after few ⊢
    have some : st'.ord ≠ 0xFF := fun none => by
      rw [none] at few
      exact absurd few (by decide)
    obtain ⟨segs, suffix, place, run, oks⟩ := after.known some
    rw [drop_of_suffix suffix (place.trans length'.symm)]
    rw [List.take_succ_eq_append_getElem k_lt, List.suffix_concat_iff] at suffix
    obtain ⟨rest, rfl, before⟩ := suffix.resolve_left run.ne_nil
    rw [List.forall_mem_append, List.forall_mem_singleton] at oks
    have picked := (pickLfn_spec st.lfn es[k]).2 ((pickLfn_pickable _ _).trans oks.2)
    have first_le : st'.ord.toNat < 63 := by omega
    rcases run.of_concat with ⟨rfl, first⟩ | ⟨run', later⟩
    · have marked := first.first_iff.2 rfl
      rw [if_pos, List.nil_append, textOf_single, ← first.offset.2 first_le]
      · have whole := picked [] (by rw [if_pos marked])
        rwa [List.append_nil] at whole
      · rw [lfnStart, if_pos marked]
        exact ⟨if_pos marked, rfl⟩
    · have unmarked : ¬ es[k] 0 &&& 0x40 ≠ 0 := fun marked =>
        absurd (later.first_iff.1 marked) Bool.false_ne_true
      obtain ⟨same, number, start⟩ := tracks.all rest _ _ before run' oks.1
      have bound := pickable_le oks.2 (by rw [later.number]; omega)
      rw [later.number] at bound
      have held := tracks.held (number ▸ bound)
      rw [number, drop_of_suffix before (start.trans length.symm)] at held
      rw [if_pos, textOf_snoc, ← later.offset.2 first_le]
      · refine picked (textOf rest) ?_
        rw [if_neg unmarked, later.offset.2 first_le]
        exact held
      · rw [lfnStart, if_neg unmarked]
        exact ⟨UInt8.toNat_inj.1 (later.number.trans number.symm), same.trans later.sum.symm⟩
  · obtain ⟨found, there⟩ : ∃ found, readLook k es[k] st = .inr found :=
      ⟨_, readLook_file ⟨void, isLfn⟩⟩
    rw [there] at look
    cases look

/-! ## Where a long name ends -/

theorem endOf_snoc (some : segs ≠ []) : endOf (segs ++ [e]) = endOf segs + 13 := by
  cases segs with
  | nil => exact absurd rfl some
  | cons a rest =>
    rw [List.cons_append, endOf, endOf, List.length_append, List.length_singleton]
    omega

/-- Without an end all characters are in front of it. -/
theorem upToEnd_none {cs : List WChar} (none : 0 ∉ cs) : upToEnd cs = cs :=
  List.takeWhile_eq_self_iff.2 fun _ member => decide_eq_true fun zero => none (zero ▸ member)

/-- With an end the characters are stored with it. -/
theorem stored_some {cs : List WChar} (some : 0 ∈ cs) : stored cs = (upToEnd cs).length + 1 := by
  induction cs with
  | nil => cases some
  | cons c cs ih =>
    by_cases ended : c = 0
    · rw [ended, stored, if_pos rfl, upToEnd_zero, List.length_nil]
    · rw [stored, if_neg ended, upToEnd_cons ended, List.length_cons,
        ih ((List.mem_cons.1 some).resolve_left fun same => ended same.symm)]

/-- If only the first entry of a name has the end of it, that is at the length of the name. -/
theorem LongRun.length_nameOf (run : LongRun sum p segs) (whole : Whole segs) :
    (nameOf segs).length = endOf segs := by
  induction run with
  | first entry => rw [nameOf, textOf_single, endOf, List.length_nil, Nat.mul_zero, Nat.zero_add]
  | next run entry ih =>
    obtain ⟨whole', last⟩ := List.forall_mem_append.1 whole
    have none := List.forall_mem_singleton.1 last fun marked =>
      absurd (entry.first_iff.1 marked) Bool.false_ne_true
    rw [endOf_snoc run.ne_nil, ← ih whole', nameOf, textOf_snoc, upToEnd_append, if_neg none,
      List.length_append, lfnChars_length, nameOf, Nat.add_comm]

/-- The entry with the end of a name is accepted if there is room for it. -/
theorem LongEntry.pickable_first (entry : LongEntry sum (p + 1) true e) (small : p < 63) :
    pickable e = true ↔ endOf [e] + 13 * p < 254 := by
  have marked := entry.first_iff.2 rfl
  rw [pickable, (pickLfn_spec _ e).1, entry.offset.2 small, endOf, List.length_nil]
  by_cases ended : 0 ∈ lfnChars e
  · have length := stored_some ended
    refine ⟨fun ok => ?_, fun fits => ⟨entry.padded, by omega, fun _ => by omega⟩⟩
    have room := ok.2.2 marked
    omega
  · have length := stored_eq ended
    rw [upToEnd_none ended]
    rw [lfnChars_length] at length ⊢
    refine ⟨fun ok => ?_, fun fits => ⟨entry.padded, by omega, fun _ => by omega⟩⟩
    have room := ok.2.2 marked
    omega

/-- The entries of a long name are accepted if there is room for its end. -/
theorem LongRun.pickable (run : LongRun sum p segs) (p_le : p ≤ 20) :
    (∀ e ∈ segs, pickable e = true) ↔ endOf segs + 13 * p < 254 := by
  induction run with
  | first entry =>
    rw [List.forall_mem_singleton]
    exact entry.pickable_first (by omega)
  | @next p segs e run entry ih =>
    rw [List.forall_mem_append, List.forall_mem_singleton, endOf_snoc run.ne_nil]
    have unmarked : ¬ e 0 &&& 0x40 ≠ 0 := fun marked =>
      absurd (entry.first_iff.1 marked) Bool.false_ne_true
    have length : stored (lfnChars e) ≤ (lfnChars e).length := stored_le
    rw [lfnChars_length] at length
    by_cases last : p = 20
    · refine iff_of_false (fun both => ?_) (by omega)
      have small := pickable_le both.2 (by rw [entry.number]; omega)
      rw [entry.number] at small
      omega
    · rw [ih (by omega)]
      refine ⟨fun both => by omega, fun fits => ⟨by omega, ?_⟩⟩
      refine (pickLfn_spec _ e).1.2 ⟨entry.padded, ?_, fun marked => absurd marked unmarked⟩
      rw [entry.offset.2 (by omega)]
      omega

/-! ## One object -/

/-- The entry in front of a place is not one of a long name that goes on there. -/
def Edge (es : List Mem) (i : Nat) : Prop := ∀ j (j_lt : j < es.length), i = j + 1 → ¬ IsLfn es[j]

/-- At the edge of an entry nothing has been picked up. -/
theorem ReadTracks.edge {i : Nat} (edge : Edge es i) (i_le : i ≤ es.length) (none : st.ord = 0xFF) :
    ReadTracks es i st where
  toTracks := by
    cases i with
    | zero => exact .start none
    | succ j => exact .behind i_le (fun _ isLfn => absurd isLfn (edge j i_le rfl)) none
  held few := by
    rw [none] at few
    exact absurd few (by decide)

/-- What `dir_read` has collected in front of the entry of a file: the long name, if there is one
that fits in the buffer. -/
structure Collected (es : List Mem) (m : Nat) (e : Mem) (lfnIdx : Nat) (lfn : Cells WChar) :
    Prop where
  long : ∀ segs, segs <:+ es.take m → LongRun (sumSfn e) 0 segs → endOf segs < 254 →
    lfnIdx + segs.length = m ∧ Spells lfn 0 (nameOf segs)
  none : (∀ segs, segs <:+ es.take m → LongRun (sumSfn e) 0 segs → ¬ endOf segs < 254) →
    lfnIdx = 0xFFFF

/-- At the entry of a file. -/
theorem ReadTracks.collected (tracks : ReadTracks es m st) (m_le : m ≤ es.length) :
    Collected es m e (if st.ord ≠ 0 ∨ st.sum ≠ sumSfn e then 0xFFFF else st.lfnIdx) st.lfn where
  long segs suffix run fits := by
    have length : (es.take m).length = m := by rw [List.length_take]; omega
    obtain ⟨same, number, place⟩ :=
      tracks.all segs _ 0 suffix run ((run.pickable (Nat.zero_le _)).2 fits)
    have whole : st.ord = 0 := UInt8.toNat_inj.1 number
    have held := tracks.held (by omega)
    rw [drop_of_suffix suffix (place.trans length.symm), number] at held
    rw [if_neg (by rw [whole, same]; simp)]
    exact ⟨place, held⟩
  none long := by
    refine if_pos ?_
    by_contra both
    rw [not_or, not_not, not_not] at both
    obtain ⟨segs, suffix, -, run, oks⟩ := tracks.known (by rw [both.1]; decide)
    rw [both.1, both.2] at run
    exact long segs suffix run ((run.pickable (Nat.zero_le _)).1 oks)

/-- From a place on, the first object is found, with its long name. -/
theorem readScan_item {i lfnIdx : Nat} (edge : Edge es i) (i_le : i ≤ es.length)
    (none : st.ord = 0xFF) (seen : scan readLook i (es.drop i) st = .inr (m, lfnIdx, lfn)) :
    ∃ m_lt : m < es.length, i ≤ m ∧ Edge es (m + 1) ∧
      filesFrom i (es.drop i) = (m, es[m]) :: filesFrom (m + 1) (es.drop (m + 1)) ∧
      Collected es m es[m] lfnIdx lfn := by
  obtain ⟨passed, e, rest, next, split, place, before, look⟩ := scan_found seen
  have file := reported_of_look look
  have length := congrArg List.length split
  rw [List.length_drop, List.length_append, List.length_cons] at length
  have m_lt : m < es.length := by omega
  have at_ {j : Nat} (j_lt : j < (passed ++ e :: rest).length) :
      ∃ j_lt' : i + j < es.length, es[i + j] = (passed ++ e :: rest)[j] := by
    rw [List.length_append, List.length_cons] at j_lt
    refine ⟨by omega, ?_⟩
    simp only [← split, List.getElem_drop]
  have here : es[m] = e := by
    obtain ⟨_, same⟩ :=
      at_ (j := passed.length) (by rw [List.length_append, List.length_cons]; omega)
    rw [List.getElem_append_right (Nat.le_refl _)] at same
    simp only [place, same, Nat.sub_self, List.getElem_cons_zero]
  have behind : es.drop (m + 1) = rest := by
    have dropped := congrArg (List.drop (passed.length + 1)) split
    rw [List.drop_drop, List.drop_append, List.drop_eq_nil_of_le (Nat.le_succ _),
      Nat.add_sub_cancel_left] at dropped
    rw [place, Nat.add_assoc]
    exact dropped
  have tracks := scan_invariant (fun k st => ReadTracks es k st)
    (fun j j_lt st next tracks look => by
      obtain ⟨j_lt', same⟩ := at_ (j := j) (by rw [List.length_append]; omega)
      rw [List.getElem_append_left j_lt] at same
      rw [← same] at look
      exact tracks.look j_lt' look) (.edge edge i_le none) before
  rw [← place] at tracks
  rw [readLook_file file] at look
  obtain ⟨rfl, rfl⟩ := Prod.mk.inj (Sum.inr.inj look)
  refine ⟨m_lt, by omega, fun j j_lt next => ?_, ?_, here ▸ tracks.collected (Nat.le_of_lt m_lt)⟩
  · obtain rfl : m = j := Nat.succ.inj next
    rw [here]
    exact file.2
  · rw [split, filesFrom_append, filesFrom_none (readScan_none before), List.nil_append, filesFrom,
      if_pos file, ← place, here, behind]

/-! ## The name that is reported -/

/-- A character below 0x100 fits into a byte. -/
theorem toUInt16_toUInt8 {c : WChar} (small : c < 0x100) : c.toUInt8.toUInt16 = c := by
  have below : c.toNat < 256 := UInt16.lt_iff_toNat_lt.1 small
  refine UInt16.toNat_inj.1 ?_
  rw [UInt8.toNat_toUInt16, UInt16.toNat_toUInt8, Nat.mod_eq_of_lt below]

/-- The character of the code page for a Unicode character. -/
theorem oemChar_convert {c : WChar} (some : ffConvert c false ≠ 0) :
    oemChar (ffConvert c false).toUInt8 = c := by
  obtain ⟨back, small⟩ := ffConvert_unicode some
  rw [oemChar, toUInt16_toUInt8 small, back]

/-- The characters of the code page are converted back. -/
theorem convert_oemChar (oem : UInt8) : ffConvert (oemChar oem) false = oem.toUInt16 := by
  refine ffConvert_oem (UInt16.lt_iff_toNat_lt.2 ?_)
  rw [UInt8.toNat_toUInt16]
  exact oem.toNat_lt

/-- Two bytes of the code page are never one character. -/
theorem oemChar_injective : Function.Injective oemChar := fun a b same => by
  have both := congrArg (ffConvert · false) same
  simp only [convert_oemChar] at both
  have numbers := congrArg UInt16.toNat both
  rw [UInt8.toNat_toUInt16, UInt8.toNat_toUInt16] at numbers
  exact UInt8.toNat_inj.1 numbers

/-- The loop yields the name in the code page, if all of it can be converted and there is room. -/
theorem lfnameLoop_spec (room : Nat) (spells : Spells lfn p name) :
    (∃ out, lfnameLoop lfn room p = some out ∧ out.map oemChar = name ∧
      Convertible (room + 1) name) ∨
    lfnameLoop lfn room p = none ∧ ¬ Convertible (room + 1) name := by
  induction name generalizing room p with
  | nil =>
    refine .inl ⟨[], ?_, rfl, nofun, Nat.succ_pos _⟩
    unfold lfnameLoop
    exact if_pos spells
  | cons c cs ih =>
    obtain ⟨some, char, rest⟩ := spells
    unfold lfnameLoop
    rw [char, if_neg some]
    by_cases bad : ffConvert c false = 0
    · rw [if_pos bad]
      refine .inr ⟨rfl, fun all => ?_⟩
      obtain ⟨oem, rfl⟩ := all.1 c List.mem_cons_self
      rw [convert_oemChar] at bad
      have zero := congrArg UInt16.toNat bad
      rw [UInt8.toNat_toUInt16] at zero
      obtain rfl : oem = 0 := UInt8.toNat_inj.1 zero
      exact some (by decide)
    · rw [if_neg bad]
      have converts : ∃ oem, oemChar oem = c := ⟨_, oemChar_convert bad⟩
      cases room with
      | zero =>
        refine .inr ⟨rfl, fun all => ?_⟩
        have length := all.2
        rw [List.length_cons] at length
        omega
      | succ room =>
        dsimp only
        rcases ih room rest with ⟨out, done, same, all⟩ | ⟨failed, differs⟩
        · refine .inl ⟨_, by rw [done, Option.map_some], ?_, List.forall_mem_cons.2
            ⟨converts, all.1⟩, ?_⟩
          · rw [List.map_cons, oemChar_convert bad, same]
          · rw [List.length_cons]
            exact Nat.succ_lt_succ all.2
        · rw [failed]
          refine .inr ⟨rfl, fun all => differs ⟨(List.forall_mem_cons.1 all.1).2, ?_⟩⟩
          have length := all.2
          rw [List.length_cons] at length
          exact Nat.lt_of_succ_lt_succ length

/-! ## Short names -/

theorem shownChar_ne {c : UInt8} (lower : Bool) (some : c ≠ 0) : shownChar lower c ≠ 0 := by
  unfold shownChar
  split
  case isTrue letter =>
    have low := UInt8.le_iff_toNat_le.1 letter.2.1
    have high := UInt8.le_iff_toNat_le.1 letter.2.2
    intro zero
    have number := congrArg UInt8.toNat zero
    rw [UInt8.toNat_add] at number
    change 0x41 ≤ c.toNat at low
    change c.toNat ≤ 0x5A at high
    change (c.toNat + 0x20) % 256 = 0 at number
    omega
  case isFalse => exact some

/-- A name that is reported has a first character, unless it is blank. -/
theorem fname_head (used : e 0 ≠ 0) :
    (nameBody e ++ nameExt e).headD 0 = 0 ↔ nameBody e ++ nameExt e = [] := by
  refine ⟨fun head => ?_, fun blank => by rw [blank]; rfl⟩
  by_cases space : e 0 = 0x20
  · have none : nameBody e = [] := by
      rw [nameBody, show List.range 8 = 0 :: [1, 2, 3, 4, 5, 6, 7] from rfl, List.map_cons,
        List.takeWhile_cons_of_neg (by simpa using space), List.map_nil]
    rw [none, List.nil_append] at head ⊢
    unfold nameExt at head ⊢
    split
    case isTrue some =>
      rw [if_pos some] at head
      cases head
    case isFalse => rfl
  · rw [nameBody, show List.range 8 = 0 :: [1, 2, 3, 4, 5, 6, 7] from rfl, List.map_cons,
      List.takeWhile_cons_of_pos (by simpa using space), List.map_cons, List.cons_append,
      List.headD_cons] at head
    refine absurd head (shownChar_ne _ ?_)
    split
    · decide
    · exact used

/-! ## The next object -/

/-- The end of a folder is no failure of its listing. -/
theorem after_untilEnd {α : Type} {x : FsM α} {ok : Option α → Fatfs → Prop}
    {failed : FError → Fatfs → Prop} (after : After x (fun a => ok (some a))
      (fun e s' => if e = .noFile then ok none s' else failed e s') s) :
    After (untilEnd x) ok failed s := by
  unfold untilEnd
  rw [after_tryCatch, after_bind]
  refine after.mono (fun _ _ => id) fun e s' => ?_
  split
  · exact id
  · exact id

/-- Up to the end of the directory its entries are those in use. -/
theorem inUse_drop {i : Nat} (i_le : i ≤ (inUse es).length) :
    inUse (es.drop i) = (inUse es).drop i := by
  obtain ⟨rest, whole⟩ := List.takeWhile_prefix (l := es) fun e => decide (e 0 ≠ 0)
  have whole' : inUse es ++ rest = es := whole
  have ended : inUse rest = [] := by
    have again : inUse (inUse es ++ rest) = inUse es ++ inUse rest :=
      inUse_append (fun e member => ne_of_mem_inUse member) rest
    rw [whole'] at again
    exact List.self_eq_append_right.1 again
  conv_lhs => rw [← whole', List.drop_append_of_le_length i_le]
  rw [inUse_append fun e member => ne_of_mem_inUse (List.mem_of_mem_drop member), ended,
    List.append_nil]

theorem inUse_length_le : (inUse (s.dirEntries g cells)).length ≤ g.dirSize cells := by
  rw [← dirEntries_length (s := s)]
  exact (List.takeWhile_prefix _).length_le

/-- `get_fileinfo` reports the file that `dir_read` has come to. -/
theorem getFileinfo_spec (file : dj.sect ≠ 0) (window : entryAt s.win dj.dir = e)
    (m_lt : m < 65536) (collected : Collected es m e dj.lfnIdx lfn) (room : 0 < fno.lfsize) :
    After (getFileinfo dj lfn fno)
      (fun info s' => Reports fno.lfsize es m e info ∧ s' = s) (fun _ _ => False) s := by
  unfold getFileinfo
  rw [after_bind, after_get, window]
  dsimp only
  rw [if_pos file, if_pos (Nat.ne_of_gt room), after_pure]
  have named : ∀ segs, LongAt fno.lfsize es m e segs →
      List.map oemChar (if dj.sect ≠ 0 ∧ dj.lfnIdx ≠ 0xFFFF then
        (lfnameLoop lfn (fno.lfsize - 1) 0).getD [] else []) = nameOf segs := by
    rintro segs ⟨suffix, run, fits, all⟩
    obtain ⟨place, spells⟩ := collected.long segs suffix run fits
    have some := List.length_pos_iff.2 run.ne_nil
    rcases lfnameLoop_spec (fno.lfsize - 1) spells with
      ⟨out, done, same, -⟩ | ⟨-, differs⟩
    · rw [done, if_pos ⟨file, by omega⟩]
      exact same
    · rw [Nat.sub_add_cancel room] at differs
      exact absurd all differs
  refine ⟨⟨rfl, rfl, rfl, rfl, rfl, rfl, named, fun segs suffix run whole short all =>
    named segs ⟨suffix, run, run.length_nameOf whole ▸ short, all⟩, fun none => ?_⟩, rfl⟩
  · by_cases long : ∃ segs, segs <:+ es.take m ∧ LongRun (sumSfn e) 0 segs ∧ endOf segs < 254
    · obtain ⟨segs, suffix, run, fits⟩ := long
      obtain ⟨-, spells⟩ := collected.long segs suffix run fits
      rcases lfnameLoop_spec (fno.lfsize - 1) spells with ⟨-, -, -, all⟩ | ⟨failed, -⟩
      · rw [Nat.sub_add_cancel room] at all
        exact absurd ⟨suffix, run, fits, all⟩ (none segs)
      · simp only [failed, Option.getD_none, ite_self]
    · have missing := collected.none fun segs suffix run fits => long ⟨segs, suffix, run, fits⟩
      exact if_neg fun both => both.2 missing

variable (g) in
/-- A directory object is at the entry `i`, or there are no more entries. -/
def Ahead (sclust : Nat) (cells : List Nat) (es : List Mem) (i : Nat) (dj : Dir) : Prop :=
  g.AtEntry sclust cells dj ∧ dj.index = i ∨ dj.sect = 0 ∧ es.length ≤ i

variable (g) in
/-- What a call of `f_readdir` in front of the entry `i` yields: the next file, or no name at the
end. -/
def NextFile (sclust : Nat) (cells : List Nat) (es : List Mem) (i lfsize : Nat)
    (r : Dir × FilInfo) : Prop :=
  filesFrom i (es.drop i) = [] ∧ r.2.fname = [] ∨
    ∃ m e, filesFrom i (es.drop i) = (m, e) :: filesFrom (m + 1) (es.drop (m + 1)) ∧ e ∈ es ∧
      i ≤ m ∧ m + 1 ≤ es.length ∧ Edge es (m + 1) ∧ Reports lfsize es m e r.2 ∧
      Ahead g sclust cells es (m + 1) r.1

/-- At the end of a directory no name is reported. -/
theorem getFileinfo_none (ended : dj.sect = 0) :
    After (getFileinfo dj lfn fno) (fun info s' => info.fname = [] ∧ s' = s) (fun _ _ => False)
      s := by
  unfold getFileinfo
  rw [after_bind, after_get]
  dsimp only
  rw [if_neg (not_not.2 ended)]
  split
  · exact ⟨rfl, rfl⟩
  · exact ⟨rfl, rfl⟩

/-- The rest of a call of `f_readdir` that has come to the end. -/
theorem fReaddir_ended (ended : dj.sect = 0) :
    After (do
        let fno ← getFileinfo dj lfn fno
        let next ← untilEnd (dirNext g faults dj false)
        return (next.getD { dj with sect := 0 }, fno))
      (fun r s' => r.2.fname = [] ∧ s' = s) (fun _ _ => False) s := by
  rw [after_bind]
  refine (getFileinfo_none ended).mono (fun info s' => ?_) fun _ _ => id
  rintro ⟨blank, rfl⟩
  rw [after_bind]
  refine after_untilEnd ?_
  unfold dirNext
  dsimp only
  rw [if_pos (.inr ended)]
  exact ⟨blank, rfl⟩

/-- One call of `f_readdir` reports the next file, or that there is none. -/
theorem fReaddir_spec (wf : g.Wf) (coherent : s.Coherent g)
    (table : g.HasTable (s.fat g) sclust cells) {i : Nat} (lfn : Cells WChar)
    (ahead : Ahead g sclust cells (inUse (s.dirEntries g cells)) i dj)
    (i_le : i ≤ (inUse (s.dirEntries g cells)).length)
    (edge : Edge (inUse (s.dirEntries g cells)) i) (room : 0 < fno.lfsize) :
    After (fReaddir g faults (some lfn) dj fno)
      (fun r s' => NextFile g sclust cells (inUse (s.dirEntries g cells)) i fno.lfsize r ∧
        Kept g faults s s') (fun e _ => Broken faults e) s := by
  have size_le : g.dirSize cells ≤ 65536 := Nat.min_le_left _ _
  have used_le : (inUse (s.dirEntries g cells)).length ≤ g.dirSize cells := inUse_length_le
  unfold fReaddir
  dsimp only
  rw [after_bind]
  refine after_untilEnd ?_
  unfold dirRead
  rw [after_bind]
  rcases ahead with ⟨here, rfl⟩ | ⟨ended, none⟩
  · refine (lookLoop_spec wf coherent table 65536 _ here (by omega)).mono (fun found s₁ => ?_)
      fun e s₁ => ?_
    · rintro ⟨seen, at_entry, kept, window⟩
      have there := at_entry.named found.2.1
      rw [inUse_drop i_le] at seen
      obtain ⟨m_lt, m_ge, edge', files, collected⟩ := readScan_item edge i_le rfl seen
      have same :
        s.dirEntry g cells found.1.index = (inUse (s.dirEntries g cells))[found.1.index] := by
        have inside : found.1.index < (s.dirEntries g cells).length :=
          Nat.lt_of_lt_of_le m_lt (List.takeWhile_prefix _).length_le
        have prefix_eq := (List.takeWhile_prefix (l := s.dirEntries g cells)
          fun e => decide (e 0 ≠ 0)).getElem m_lt
        refine Eq.trans ?_ prefix_eq.symm
        simp only [Fatfs.dirEntries, List.getElem_map, List.getElem_range]
      have file : ({ found.1 with lfnIdx := found.2.1 } : Dir).sect ≠ 0 :=
        at_entry.sect ▸ (table.own wf (dirEntry_sector wf at_entry.index)).ne_zero wf
      have small : found.1.index < 65536 := by omega
      rw [after_pure, Option.getD_some, after_bind]
      refine (getFileinfo_spec file (window.trans same) small collected room).mono
        (fun info s₂ => ?_) fun _ _ => False.elim
      rintro ⟨reports, rfl⟩
      have yields {dj' : Dir} (ahead' : Ahead g sclust cells (inUse (s.dirEntries g cells))
          (found.1.index + 1) dj') :
          NextFile g sclust cells (inUse (s.dirEntries g cells)) dj.index fno.lfsize (dj', info) :=
        .inr ⟨_, _, files, List.getElem_mem m_lt, m_ge, m_lt, edge', reports, ahead'⟩
      rw [after_bind]
      refine after_untilEnd ((dirNext_spec wf kept.coherent (kept.hasTable wf table) there).mono
        (fun next s₃ => ?_) fun e s₃ => ?_)
      · rintro ⟨here', moved, kept'⟩
        exact ⟨yields (.inl ⟨here', moved⟩), kept.trans kept'⟩
      · rintro (⟨rfl, ended, kept'⟩ | ⟨rfl, broken⟩)
        · rw [if_pos rfl]
          refine ⟨yields (.inr ⟨rfl, ?_⟩), kept.trans kept'⟩
          rw [show found.1.index + 1 = g.dirSize cells from ended]
          exact used_le
        · exact ⟨rfl, broken⟩
    · rintro (⟨rfl, kept, next, seen⟩ | ⟨rfl, broken⟩)
      · rw [if_pos rfl, Option.getD_none]
        refine (fReaddir_ended rfl).mono (fun r s₂ => ?_) fun _ _ => False.elim
        rintro ⟨blank, rfl⟩
        rw [inUse_drop i_le] at seen
        exact ⟨.inl ⟨filesFrom_none (readScan_none seen), blank⟩, kept⟩
      · exact ⟨rfl, broken⟩
  · unfold lookLoop
    rw [if_pos ⟨rfl, ended⟩, after_throw, if_pos rfl, Option.getD_none]
    refine (fReaddir_ended rfl).mono (fun r s₂ => ?_) fun _ _ => False.elim
    rintro ⟨blank, rfl⟩
    refine ⟨.inl ⟨?_, blank⟩, .refl coherent⟩
    rw [List.drop_eq_nil_of_le none]
    rfl

/-! ## The listing -/

variable {heap : Nat → Option (Cells WChar)} {files : List (Nat × Mem)} {infos : List FilInfo}

/-- Nothing is reported of no files. -/
theorem Listed.nil : Listed lfsize es [] [] := List.Forall₂.nil

/-- A shown file is reported, and then the others. -/
theorem Listed.cons (shown : Shown (m, e)) (reports : Reports lfsize es m e info)
    (listed : Listed lfsize es files infos) :
      Listed lfsize es ((m, e) :: files) (info :: infos) := by
  unfold Listed
  rw [List.takeWhile_cons, if_pos (decide_eq_true shown)]
  exact .cons reports listed

/-- A file without a name is not reported, and nor is any behind it. -/
theorem Listed.blank (blank : ¬ Shown (m, e)) : Listed lfsize es ((m, e) :: files) [] := by
  unfold Listed
  rw [List.takeWhile_cons, if_neg (by simpa using blank)]
  exact .nil

/-- From an entry on, all files are listed. -/
theorem listLoop_spec (wf : g.Wf) (coherent : s.Coherent g)
    (table : g.HasTable (s.fat g) sclust cells) {i : Nat} (fuel calls : Nat)
    (ahead : Ahead g sclust cells (inUse (s.dirEntries g cells)) i dj)
    (i_le : i ≤ (inUse (s.dirEntries g cells)).length)
    (enough : (inUse (s.dirEntries g cells)).length < i + fuel)
    (edge : Edge (inUse (s.dirEntries g cells)) i) (room : 0 < fno.lfsize) :
    After (listLoop g faults heap fuel calls dj fno)
      (fun infos s' => Listed fno.lfsize (inUse (s.dirEntries g cells))
        (filesFrom i ((inUse (s.dirEntries g cells)).drop i)) infos ∧ Kept g faults s s')
      (fun e s' => Broken faults e ∨
        e = .notEnoughCore ∧ (∃ n, heap n = none) ∧ Kept g faults s s') s := by
  induction fuel generalizing i calls dj fno s with
  | zero => omega
  | succ fuel ih =>
    unfold listLoop
    rw [after_bind]
    cases buffer : heap calls with
    | none => exact .inr ⟨rfl, ⟨calls, buffer⟩, .refl coherent⟩
    | some lfn =>
      refine (fReaddir_spec wf coherent table lfn ahead i_le edge room).mono (fun r s₁ => ?_)
        fun _ _ => .inl
      rintro ⟨⟨files, blank⟩ | ⟨m, e, files, member, m_ge, m_le, edge', reports, ahead'⟩, kept⟩
      · rw [if_pos (by rw [blank]; rfl), files]
        exact ⟨.nil, kept⟩
      · have used : e 0 ≠ 0 := ne_of_mem_inUse member
        rw [files]
        by_cases shown : Shown (m, e)
        · rw [if_neg (by rw [reports.fname, fname_head used]; exact shown), after_bind]
          have same := kept.dirEntries wf table
          have rest : After (listLoop g faults heap fuel (calls + 1) r.1 r.2) _ _ s₁ :=
            ih kept.coherent (kept.hasTable wf table) (calls + 1) (same ▸ ahead') (same ▸ m_le)
              (by rw [same]; omega) (same ▸ edge') (reports.room ▸ room)
          rw [same, reports.room] at rest
          refine rest.mono (fun infos s₂ => ?_) fun e' s₂ => ?_
          · rintro ⟨listed, kept'⟩
            exact ⟨.cons shown reports listed, kept.trans kept'⟩
          · rintro (broken | ⟨full, none, kept'⟩)
            · exact .inl broken
            · exact .inr ⟨full, none, kept.trans kept'⟩
        · rw [if_pos (by rw [reports.fname, fname_head used]; exact not_not.1 shown)]
          exact ⟨.blank shown, kept⟩

/-- The calls of a listing report the files in their order. -/
theorem listDir_lists (wf : g.Wf) (coherent : s.Coherent g)
    (table : g.HasTable (s.fat g) dj.sclust cells) (heap : Nat → Option (Cells WChar))
    (room : 0 < fno.lfsize) :
    After (listDir g faults heap dj fno)
      (fun infos s' => Listed fno.lfsize (inUse (s.dirEntries g cells))
        (filesFrom 0 (inUse (s.dirEntries g cells))) infos ∧ Kept g faults s s')
      (fun e s' => Broken faults e ∨
        e = .notEnoughCore ∧ (∃ n, heap n = none) ∧ Kept g faults s s') s := by
  have size_le : g.dirSize cells ≤ 65536 := Nat.min_le_left _ _
  have used_le : (inUse (s.dirEntries g cells)).length ≤ g.dirSize cells := inUse_length_le
  unfold listDir
  rw [after_bind]
  refine (dirSdi_spec wf coherent table (HasTable.size_pos wf table)).mono (fun dj' s₁ => ?_)
    fun _ _ => .inl
  rintro ⟨here, index, kept⟩
  have same := kept.dirEntries wf table
  have start : Edge (inUse (s₁.dirEntries g cells)) 0 := fun j _ next => by cases next
  have enough : (inUse (s₁.dirEntries g cells)).length < 0 + 65537 := by
    rw [same]
    omega
  have loop : After (listLoop g faults heap 65537 0 dj' fno) _ _ s₁ :=
    listLoop_spec wf kept.coherent (kept.hasTable wf table) 65537 0 (.inl ⟨here, index⟩)
      (Nat.zero_le _) enough start room
  rw [List.drop_zero, same] at loop
  refine loop.mono (fun infos s₂ => ?_) fun e s₂ => ?_
  · rintro ⟨listed, kept'⟩
    exact ⟨listed, kept.trans kept'⟩
  · rintro (broken | ⟨full, none, kept'⟩)
    · exact .inl broken
    · exact .inr ⟨full, none, kept.trans kept'⟩

/-- A listing has all files of the directory once and in order, up to one with a blank short name.
It has their long names if these fit in the buffers and are in the code page, and leaves the volume
as it is. -/
theorem listDir_spec (wf : g.Wf) (coherent : s.Coherent g)
    (table : g.HasTable (s.fat g) dj.sclust cells) (heap : Nat → Option (Cells WChar))
    (room : 0 < fno.lfsize) :
    After (listDir g faults heap dj fno)
      (fun infos s' => Listed fno.lfsize (inUse (s.dirEntries g cells))
        (filesFrom 0 (inUse (s.dirEntries g cells))) infos ∧ Kept g faults s s')
      (fun e s' => Broken faults e ∨
        e = .notEnoughCore ∧ (∃ n, heap n = none) ∧ Kept g faults s s') s :=
  listDir_lists wf coherent table heap room

/-- The information on an object, with a buffer for a long name. -/
def smallFno : FilInfo := ⟨0, 0, 0, 0, [], [], 256⟩

theorem small_listDir :
    (filesFrom 0 (inUse (smallNamed.dirEntries small []))).map Prod.fst = [0, 2] ∧
    After (listDir small .never (fun _ => some fun _ => 0) rootDir smallFno)
      (fun infos s' => Listed smallFno.lfsize (inUse (smallNamed.dirEntries small []))
        (filesFrom 0 (inUse (smallNamed.dirEntries small []))) infos ∧
        Kept small .never smallNamed s')
      (fun e s' => Broken .never e ∨ e = .notEnoughCore ∧
        (∃ n : Nat, (fun _ => some fun _ => 0 : Nat → Option (Cells WChar)) n = none) ∧
        Kept small .never smallNamed s') smallNamed :=
  ⟨by decide +kernel, listDir_spec small_wf smallNamed_coherent smallNamed_table _ (by decide)⟩

/-! ## A listing behind a removal -/

/-- A file is an entry of the list, at its place. -/
theorem mem_filesFrom (member : (m, e) ∈ filesFrom k es) :
    Reported e ∧ ∃ i, m = k + i ∧ ∃ i_lt : i < es.length, es[i] = e := by
  induction es generalizing k with
  | nil => cases member
  | cons a es ih =>
    have later (behind : (m, e) ∈ filesFrom (k + 1) es) :
        Reported e ∧ ∃ i, m = k + i ∧ ∃ i_lt : i < (a :: es).length, (a :: es)[i] = e := by
      obtain ⟨file, i, rfl, i_lt, here⟩ := ih behind
      exact ⟨file, i + 1, by omega, Nat.succ_lt_succ i_lt, here⟩
    rw [filesFrom] at member
    split at member
    case isTrue file =>
      rcases List.mem_cons.1 member with same | behind
      · obtain ⟨rfl, rfl⟩ := Prod.mk.inj same
        exact ⟨file, 0, rfl, Nat.succ_pos _, rfl⟩
      · exact later behind
    case isFalse => exact later member

/-- Entries of long names behind another one are those of the rest. -/
theorem suffix_behind {α : Type} {a : α} {front rest segs : List α} (other : a ∉ segs) :
    segs <:+ front ++ a :: rest ↔ segs <:+ rest := by
  refine ⟨fun suffix => ?_, fun suffix =>
    (suffix.trans (List.suffix_cons a rest)).trans (List.suffix_append front _)⟩
  rcases List.suffix_or_suffix_of_suffix suffix (List.suffix_append front (a :: rest)) with
    short | long
  · rcases List.suffix_cons_iff.1 short with rfl | inside
    · exact absurd List.mem_cons_self other
    · exact inside
  · exact absurd (long.mem List.mem_cons_self) other

variable {es' before : List Mem}

/-- The entries of a long name in front of another file are still there. -/
theorem Removed.runs (removed : Removed es es' before segs e) {b : Mem} {run : List Mem}
    (member : (m, b) ∈ filesFrom 0 (FatFs.inUse es))
    (other : m ≠ before.length + segs.length) (long : ∀ c ∈ run, ¬ Void c ∧ IsLfn c) :
    run <:+ (FatFs.inUse es).take m ↔ run <:+ (FatFs.inUse es').take m := by
  obtain ⟨rest, void, used, used', length, voids⟩ := removed.inUse
  obtain ⟨reported, i, place, i_lt, here⟩ := mem_filesFrom member
  rw [Nat.zero_add] at place
  subst place
  rw [used, used']
  rcases Nat.lt_or_ge m before.length with early | late
  · rw [List.take_append_of_le_length (by omega), List.take_append_of_le_length (by omega)]
  · have behind : before.length + segs.length + 1 ≤ m := by
      by_contra inside
      have inside' : m - before.length < segs.length := by omega
      have same : (FatFs.inUse es)[m] = segs[m - before.length] := by
        simp only [used]
        rw [List.getElem_append_right late, List.getElem_append_left (by
          rw [List.length_append]; omega), List.getElem_append_left inside']
      rcases removed.nameless _ (List.getElem_mem inside') with isVoid | isLfn
      · exact reported.1 (.inl (here ▸ same ▸ isVoid))
      · exact reported.2 (here ▸ same ▸ isLfn)
    obtain ⟨void', last, rfl⟩ : ∃ void' last, void = void' ++ [last] :=
      ⟨_, _, (List.dropLast_append_getLast (List.ne_nil_of_length_pos (by omega))).symm⟩
    rw [List.length_append, List.length_singleton] at length
    have isVoid := voids last (List.mem_append_right _ List.mem_cons_self)
    have takes {front : List Mem} {a : Mem} (size : front.length = before.length + segs.length) :
        (front ++ a :: rest).take m =
          front ++ a :: rest.take (m - (before.length + segs.length + 1)) := by
      rw [List.take_append, List.take_of_length_le (by omega), size,
        show m - (before.length + segs.length) = m - (before.length + segs.length + 1) + 1 by omega,
        List.take_succ_cons]
    have left : before ++ ((segs ++ [e]) ++ rest) = (before ++ segs) ++ e :: rest := by simp
    have right : before ++ ((void' ++ [last]) ++ rest) = (before ++ void') ++ last ::
      rest := by simp
    rw [left, right, takes List.length_append, takes (by rw [List.length_append]; omega),
      suffix_behind fun inside => removed.file.isSfn (long e inside).2,
      suffix_behind fun inside => (long last inside).1 isVoid]

/-- The places of the files but for the one that has been removed. -/
theorem Removed.filesFrom (removed : Removed es es' before segs e) :
    FatFs.filesFrom 0 (FatFs.inUse es') = (FatFs.filesFrom 0 (FatFs.inUse es)).filter
      fun p => p.1 ≠ before.length + segs.length := by
  obtain ⟨rest, void, used, used', length, voids⟩ := removed.inUse
  have first : (FatFs.filesFrom 0 before).filter (fun p => p.1 ≠ before.length + segs.length) =
      FatFs.filesFrom 0 before := List.filter_eq_self.2 fun p member => by
    obtain ⟨-, i, place, i_lt, -⟩ := mem_filesFrom member
    exact decide_eq_true (by omega)
  have itself : (FatFs.filesFrom before.length (segs ++ [e])).filter
      (fun p => p.1 ≠ before.length + segs.length) = [] := by
    rw [filesFrom_append, filesFrom_none fun b member file =>
      (removed.nameless b member).elim (fun void => file.1 (.inl void)) file.2]
    rw [List.nil_append, FatFs.filesFrom]
    split
    · simp [FatFs.filesFrom]
    · rfl
  have last : (FatFs.filesFrom (before.length + (segs ++ [e]).length) rest).filter
      (fun p => p.1 ≠ before.length + segs.length) =
      FatFs.filesFrom (before.length + (segs ++ [e]).length) rest :=
    List.filter_eq_self.2 fun p member => by
      obtain ⟨-, i, place, -, -⟩ := mem_filesFrom member
      rw [List.length_append, List.length_singleton] at place
      exact decide_eq_true (by omega)
  have none : FatFs.filesFrom before.length void = [] :=
    filesFrom_none fun b member file => file.1 (.inl (voids b member))
  rw [used, used', filesFrom_append, filesFrom_append, filesFrom_append, filesFrom_append,
    Nat.zero_add, none, List.filter_append, List.filter_append, first, itself, last, length,
    List.length_append, List.length_singleton]

/-- What is reported of a file is what its entries say. -/
theorem Reports.unique (reports : Reports lfsize es m e info)
    (reports' : Reports lfsize es m e info') : info = info' := by
  have lfname : info.lfname = info'.lfname := by
    by_cases long : ∃ segs, LongAt lfsize es m e segs
    · obtain ⟨segs, long⟩ := long
      exact oemChar_injective.list_map
        ((reports.long segs long).trans (reports'.long segs long).symm)
    · have none := not_exists.1 long
      exact (reports.blank none).trans (reports'.blank none).symm
  exact FilInfo.ext (reports.fsize.trans reports'.fsize.symm)
    (reports.fdate.trans reports'.fdate.symm) (reports.ftime.trans reports'.ftime.symm)
    (reports.fattrib.trans reports'.fattrib.symm) (reports.fname.trans reports'.fname.symm) lfname
    (reports.room.trans reports'.room.symm)

/-- The entries of long names in front of a file are what its report depends on. -/
theorem Reports.congr (same : ∀ run : List Mem, (∀ c ∈ run, ¬ Void c ∧ IsLfn c) →
    (run <:+ es.take m ↔ run <:+ es'.take m)) (reports : Reports lfsize es m e info) :
    Reports lfsize es' m e info := by
  have long (run : List Mem) : LongAt lfsize es m e run ↔ LongAt lfsize es' m e run :=
    ⟨fun at_ => ⟨(same run at_.2.1.live).1 at_.1, at_.2⟩,
      fun at_ => ⟨(same run at_.2.1.live).2 at_.1, at_.2⟩⟩
  exact { reports with
    long := fun run at_ => reports.long run ((long run).2 at_)
    whole := fun run suffix isRun => reports.whole run ((same run isRun.live).2 suffix) isRun
    blank := fun none => reports.blank fun run at_ => none run ((long run).1 at_) }

/-- If all files are shown all are reported. -/
theorem Listed.whole (listed : Listed lfsize es files infos) (shown : ∀ p ∈ files, Shown p) :
    List.Forall₂ (fun p info => Reports lfsize es p.1 p.2 info) files infos := by
  have all : files.takeWhile (fun p => Shown p) = files :=
    List.takeWhile_eq_self_iff.2 fun p member => decide_eq_true (shown p member)
  rwa [Listed, all] at listed

/-- If there is one report of each object, those of some of them are found among all of them. -/
theorem forall₂_filter {α β : Type} {R : α → β → Prop} (q : α → Bool) {objects : List α}
    {all some : List β} (reports : List.Forall₂ R objects all)
    (reports' : List.Forall₂ R (objects.filter q) some)
    (unique : ∀ a b b', R a b → R a b' → b = b') :
    some = ((objects.zip all).filter fun p => q p.1).map Prod.snd := by
  induction reports generalizing some with
  | nil => exact List.forall₂_nil_left_iff.1 reports'
  | @cons a b objects all here _ ih =>
    rw [List.zip_cons_cons, List.filter_cons]
    rw [List.filter_cons] at reports'
    split at reports'
    case isTrue kept =>
      obtain ⟨b', rest, here', later, rfl⟩ := List.forall₂_cons_left_iff.1 reports'
      rw [if_pos kept, List.map_cons, ← ih later, unique a b' b here' here]
    case isFalse gone =>
      rw [if_neg gone]
      exact ih reports'

/-- A listing behind the removal of a file reports all other ones as before. -/
theorem find_remove_list (wf : g.Wf) (coherent : s.Coherent g)
    (table : g.HasTable (s.fat g) dj.sclust cells) (fn : Mem) (lfn : Option (Cells WChar))
    (heap heap' : Nat → Option (Cells WChar)) (room : 0 < fno.lfsize)
    (shown : ∀ p ∈ filesFrom 0 (inUse (s.dirEntries g cells)), Shown p) :
    After (do
        let before ← listDir g faults heap dj fno
        let found ← dirFind g faults fn lfn dj
        dirRemove g faults found
        let after ← listDir g faults heap' dj fno
        return (before, found.index, after))
      (fun r _ => (∃ lfnIdx, findEntry fn lfn (s.dirEntries g cells) = some (r.2.1, lfnIdx)) ∧
        Listed fno.lfsize (inUse (s.dirEntries g cells))
          (filesFrom 0 (inUse (s.dirEntries g cells))) r.1 ∧
        r.2.2 = (((filesFrom 0 (inUse (s.dirEntries g cells))).zip r.1).filter
          fun p => p.1.1 ≠ r.2.1).map Prod.snd)
      (fun e _ => e = .noFile ∧ findEntry fn lfn (s.dirEntries g cells) = none ∨
        e = .notEnoughCore ∧ (∃ n, heap n = none ∨ heap' n = none) ∨ Broken faults e) s := by
  rw [after_bind]
  refine (listDir_lists wf coherent table heap room).mono (fun infos s₁ => ?_) fun e s₁ => ?_
  · rintro ⟨listed, kept⟩
    have same := kept.dirEntries wf table
    rw [after_bind]
    refine (dirFind_finds wf kept.coherent (kept.hasTable wf table)).mono (fun found s₂ => ?_)
      fun e s₂ => ?_
    · rintro ⟨there, here, kept'⟩
      have both := kept.trans kept'
      have same' := both.dirEntries wf table
      have table₂ := both.hasTable wf table
      rw [same] at there
      rw [after_bind]
      refine (dirRemove_found wf both.coherent (here.start ▸ table₂) (same' ▸ there)).mono
        (fun _ s₃ => ?_) fun _ _ broken => .inr (.inr broken)
      rintro ⟨marked, before, segs, e, index, removed⟩
      rw [same'] at removed
      rw [after_bind]
      have table₃ := marked.toChanged.hasTable wf table₂
      refine (listDir_lists wf marked.coherent table₃ heap' room).mono (fun infos' s₄ => ?_)
        fun e' s₄ => ?_
      · rintro ⟨listed', -⟩
        refine ⟨⟨_, there⟩, listed, ?_⟩
        rw [removed.filesFrom, ← index] at listed'
        refine forall₂_filter (fun p => p.1 ≠ found.index) (listed.whole shown) ?_
          fun p _ _ => Reports.unique
        refine List.Forall₂.imp (fun p info both => both.2.congr fun run long => ?_)
          ((List.forall₂_and_left _ _).2 ⟨fun p member => member,
            listed'.whole fun p member => shown p (List.mem_of_mem_filter member)⟩)
        obtain ⟨member, other⟩ := List.mem_filter.1 both.1
        exact (removed.runs member (index ▸ of_decide_eq_true other) long).symm
      · rintro (broken | ⟨full, ⟨n, none⟩, -⟩)
        · exact .inr (.inr broken)
        · exact .inr (.inl ⟨full, n, .inr none⟩)
    · rintro (⟨missing, none, -⟩ | broken)
      · exact .inl ⟨missing, same ▸ none⟩
      · exact .inr (.inr broken)
  · rintro (broken | ⟨full, ⟨n, none⟩, -⟩)
    · exact .inr (.inr broken)
    · exact .inr (.inl ⟨full, n, .inl none⟩)

/-- The short one of the two files is removed, and the one with the long name is reported as
before. -/
theorem small_find_remove_list :
    findEntry smallName none (smallNamed.dirEntries small []) = some (0, 0xFFFF) ∧
    After (do
        let before ← listDir small .never (fun _ => some fun _ => 0) rootDir smallFno
        let found ← dirFind small .never smallName none rootDir
        dirRemove small .never found
        let after ← listDir small .never (fun n => some fun _ => UInt16.ofNat n) rootDir smallFno
        return (before, found.index, after))
      (fun r _ => (∃ lfnIdx, findEntry smallName none (smallNamed.dirEntries small []) =
          some (r.2.1, lfnIdx)) ∧
        Listed smallFno.lfsize (inUse (smallNamed.dirEntries small []))
          (filesFrom 0 (inUse (smallNamed.dirEntries small []))) r.1 ∧
        r.2.2 = (((filesFrom 0 (inUse (smallNamed.dirEntries small []))).zip r.1).filter
          fun p => p.1.1 ≠ r.2.1).map Prod.snd)
      (fun e _ => e = .noFile ∧ findEntry smallName none (smallNamed.dirEntries small []) = none ∨
        e = .notEnoughCore ∧
          (∃ n, (fun _ => some fun _ => 0 : Nat → Option (Cells WChar)) n = none ∨
            (fun n => some fun _ => UInt16.ofNat n : Nat → Option (Cells WChar)) n = none) ∨
        Broken .never e) smallNamed :=
  ⟨by decide +kernel,
    find_remove_list small_wf smallNamed_coherent smallNamed_table _ _ _ _ (by decide)
      (by decide +kernel)⟩

end D2xCios.FatFs
