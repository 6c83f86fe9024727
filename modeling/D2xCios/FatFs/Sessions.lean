import D2xCios.FatFs.Syncing

/-!
# Files that are open together

Some files of a volume are open, each with a file object of its own, and are read, written, sought
in and brought up to date in any order. What this does is what it would do to files of bytes that
lie in clusters of one pool: the window, the FAT and the chains cannot be told from outside. No file
gets in the way of another one, whether that is open or not.
-/

namespace D2xCios.FatFs

open D2xCios.Lib
open D2xCios.Fat.Wrapper (FError)

/-! ## The source -/

/-- A volume, and the file objects of the files that are open. -/
structure Session (ι : Type) where
  fs : Fatfs
  fp : ι → Fil

variable {ι : Type} [DecidableEq ι] (g : Geometry) (faults : Faults)

/-- The file object of an operation. -/
def fileOf : FileOp ι → ι
  | .read i _ | .write i _ | .seek i _ | .sync i => i

/-- The function for an operation. -/
def call : FileOp ι → FileM Unit
  | .read _ len => fRead g faults len
  | .write _ data => fWrite g faults data
  | .seek _ ofs => fLseek g faults ofs
  | .sync _ => fSync g faults

/-- An operation on one of the files: the bytes that it has moved. -/
def perform (op : FileOp ι) : Prog FError (Session ι) (List UInt8) := fun u =>
  let (r, t) := (call g faults op).runFrom ⟨u.fs, u.fp (fileOf op), []⟩
  (r.map fun _ => t.moved, ⟨t.fs, Function.update u.fp (fileOf op) t.fp⟩)

/-- One operation after the other. -/
def performAll : List (FileOp ι) → Prog FError (Session ι) (List (List UInt8))
  | [] => return []
  | op :: ops => do
    let bytes ← perform g faults op
    return bytes :: (← performAll ops)

/-! ## What is open -/

/-- The sector of a directory entry is in none of these clusters. -/
def Geometry.Outside (n : Nat) (cells : List Nat) : Prop := ∀ c ∈ cells, ¬ g.InCluster c n

/-- The files lie in clusters of their own, and their directory entries in none of them, nor in a
cluster that is free. The entry of a file that has not been written since is right. -/
structure Session.Open (u : Session ι) (cells : ι → List Nat) : Prop where
  coherent : u.fs.Coherent g
  proper : u.fs.Proper g
  usable : ∀ i, Usable g (u.fp i)
  file : ∀ i, HasFile g u.fs (cells i) (u.fp i)
  apart : ∀ i j, i ≠ j → (cells i).Disjoint (cells j)
  entry : ∀ i, g.Own (u.fp i).dirSect ∧ ¬ g.InFat (u.fp i).dirSect
  outside : ∀ i j, g.Outside (u.fp i).dirSect (cells j)
  unused : ∀ i c, g.links.Inside c → u.fs.fat g c = 0 → ¬ g.InCluster c (u.fp i).dirSect
  slots : ∀ i j, i ≠ j → (u.fp i).dirSect = (u.fp j).dirSect →
    (u.fp i).dirPtr + 32 ≤ (u.fp j).dirPtr ∨ (u.fp j).dirPtr + 32 ≤ (u.fp i).dirPtr
  names : ∀ i, (u.fp i).written = false → Names (u.fs.view (u.fp i).dirSect) (u.fp i)

/-- The files of bytes. -/
def Session.store (u : Session ι) (cells : ι → List Nat) : BlockStore ι where
  file i := u.fs.blockFile g (cells i) (u.fp i)
  free := (g.free (u.fs.fat g)).card

/-- An operation may be asked of its file: the file is open for it, and the buffer has a size. -/
def Session.Allowed (u : Session ι) : FileOp ι → Prop
  | .read i _ => (u.fp i).read = true
  | .write i data => (u.fp i).write = true ∧ data.length < 4294967296
  | .seek _ _ => True
  | .sync _ => True

variable {g faults} {u : Session ι} {cells : ι → List Nat} {s s' : Fatfs}

/-- A call on a file of the session is the call on that file. -/
theorem after_perform (op : FileOp ι) {ok : List UInt8 → Session ι → Prop}
    {failed : FError → Session ι → Prop} :
    After (perform g faults op) ok failed u ↔
      After (call g faults op)
        (fun _ t => ok t.moved ⟨t.fs, Function.update u.fp (fileOf op) t.fp⟩)
        (fun e t => failed e ⟨t.fs, Function.update u.fp (fileOf op) t.fp⟩)
        ⟨u.fs, u.fp (fileOf op), []⟩ := by
  unfold After
  have unfolded : (perform g faults op).runFrom u =
      (((call g faults op).runFrom ⟨u.fs, u.fp (fileOf op), []⟩).1.map fun _ =>
        ((call g faults op).runFrom ⟨u.fs, u.fp (fileOf op), []⟩).2.moved,
      ⟨((call g faults op).runFrom ⟨u.fs, u.fp (fileOf op), []⟩).2.fs, Function.update u.fp
        (fileOf op) ((call g faults op).runFrom ⟨u.fs, u.fp (fileOf op), []⟩).2.fp⟩) := rfl
  rw [unfolded]
  rcases (call g faults op).runFrom ⟨u.fs, u.fp (fileOf op), []⟩ with ⟨r, t⟩
  cases r <;> rfl

/-! ## Files that are not touched -/

/-- The clusters of another file are not among those that a file has taken. -/
theorem Grew.disjoint (wf : g.Wf) {mine mine' other : List Nat} {sclust : Nat}
    (grew : Grew g faults mine mine' s s') (holds : g.Holds (s.fat g) sclust other)
    (apart : mine.Disjoint other) : mine'.Disjoint other := by
  obtain ⟨more, rfl, new⟩ := grew.new
  intro c member member'
  rcases List.mem_append.1 member with old | taken
  · exact apart old member'
  · exact holds.linked wf member' (new c taken).2.2

/-- Another file lies in the chain in which it has been. -/
theorem Geometry.Holds.congr {fat fat' : Nat → Nat} {other : List Nat} {sclust : Nat}
    (holds : g.Holds fat sclust other) (same : ∀ c ∈ other, fat' c = fat c) :
    g.Holds fat' sclust other := by
  unfold Geometry.Holds at holds ⊢
  split
  case isTrue none => rwa [if_pos none] at holds
  case isFalse some =>
    rw [if_neg some] at holds
    exact holds.congr same

/-- A file that grows leaves the chains of others. -/
theorem Grew.holds (wf : g.Wf) {mine mine' other : List Nat} {sclust : Nat}
    (grew : Grew g faults mine mine' s s') (holds : g.Holds (s.fat g) sclust other)
    (apart : mine.Disjoint other) : g.Holds (s'.fat g) sclust other :=
  holds.congr fun c member => grew.fat c (holds.inside member) fun member' =>
    grew.disjoint wf holds apart member' member

/-- The sectors of another file hold what they have held. -/
theorem Grew.same (wf : g.Wf) {mine mine' other : List Nat} {sclust : Nat}
    (grew : Grew g faults mine mine' s s') (inside : ∀ c ∈ mine', g.links.Inside c)
    (holds : g.Holds (s.fat g) sclust other) (apart : mine.Disjoint other) {c n : Nat}
    (member : c ∈ other) (here : g.InCluster c n) : s'.view n = s.view n := by
  have range := holds.inside member
  refine grew.changed.view n (InCluster.own wf range here) ?_
  rintro (fat | ⟨d, member', there⟩)
  · exact InCluster.not_inFat wf range here fat
  · have equal := InCluster.unique wf (inside d member') range there here
    exact grew.disjoint wf holds apart member' (equal ▸ member)

/-- A directory entry is where it has been. -/
theorem Grew.entry {mine mine' : List Nat} (grew : Grew g faults mine mine' s s') {n : Nat}
    (own : g.Own n) (fat : ¬ g.InFat n) (outside : g.Outside n mine') :
    s'.view n = s.view n :=
  grew.changed.view n own fun both =>
    both.elim fat fun ⟨c, member, here⟩ => outside c member here

/-! ## What an operation does to the others -/

/-- A file object of the same file, open in the same way. -/
structure Alike (fp fp' : Fil) : Prop where
  opened : fp'.opened = fp.opened
  id : fp'.id = fp.id
  error : fp'.error = fp.error
  read : fp'.read = fp.read
  write : fp'.write = fp.write
  dirSect : fp'.dirSect = fp.dirSect
  dirPtr : fp'.dirPtr = fp.dirPtr

/-- A file that is alike is as usable. -/
theorem Alike.usable {fp fp' : Fil} (alike : Alike fp fp') (usable : Usable g fp) : Usable g fp' :=
  ⟨alike.opened.trans usable.opened, alike.id.trans usable.id, alike.error.trans usable.error⟩

/-- A file object in place of another one. -/
theorem update_dirSect {fp : ι → Fil} {i : ι} {fp' : Fil} (alike : Alike (fp i) fp') (j : ι) :
    (Function.update fp i fp' j).dirSect = (fp j).dirSect ∧
      (Function.update fp i fp' j).dirPtr = (fp j).dirPtr := by
  by_cases same : j = i
  · subst same
    rw [Function.update_self]
    exact ⟨alike.dirSect, alike.dirPtr⟩
  · rw [Function.update_of_ne same]
    exact ⟨rfl, rfl⟩

/-- A file has been read, sought in or written. -/
theorem Session.Open.grew (wf : g.Wf) (opened : u.Open g cells) {i : ι} {mine : List Nat}
    {fs : Fatfs} {fp : Fil} (grew : Grew g faults (cells i) mine u.fs fs)
    (file : HasFile g fs mine fp) (alike : Alike (u.fp i) fp)
    (unwritten : fp.written = false → (u.fp i).written = false ∧ fp.sclust = (u.fp i).sclust ∧
      fp.fsize = (u.fp i).fsize) :
    (⟨fs, Function.update u.fp i fp⟩ : Session ι).Open g (Function.update cells i mine) := by
  have disjoint : ∀ j, j ≠ i → mine.Disjoint (cells j) := fun j other =>
    grew.disjoint wf (opened.file j).holds (opened.apart i j (Ne.symm other))
  have outside : ∀ j, g.Outside (u.fp j).dirSect mine := by
    intro j c member here
    obtain ⟨more, rfl, new⟩ := grew.new
    rcases List.mem_append.1 member with old | taken
    · exact opened.outside j i c old here
    · exact opened.unused j c (new c taken).1 (new c taken).2.2 here
  refine ⟨grew.changed.coherent, grew.proper opened.proper, fun j => ?_, fun j => ?_,
    fun j k other => ?_, fun j => ?_, fun j k => ?_, fun j c inside free => ?_,
    fun j k other => ?_, fun j => ?_⟩
  · dsimp only
    by_cases same : j = i
    · subst same
      rw [Function.update_self]
      exact alike.usable (opened.usable j)
    · rw [Function.update_of_ne same]
      exact opened.usable j
  · dsimp only
    by_cases same : j = i
    · subst same
      rw [Function.update_self, Function.update_self]
      exact file
    · rw [Function.update_of_ne same, Function.update_of_ne same]
      have old := opened.file j
      exact ⟨grew.holds wf old.holds (opened.apart i j (Ne.symm same)), old.placed, old.fptr,
        old.room,
        old.fsize⟩
  · by_cases first : j = i
    · subst first
      rw [Function.update_self, Function.update_of_ne (Ne.symm other)]
      exact disjoint k (Ne.symm other)
    · rw [Function.update_of_ne first]
      by_cases second : k = i
      · subst second
        rw [Function.update_self]
        exact (disjoint j first).symm
      · rw [Function.update_of_ne second]
        exact opened.apart j k other
  · rw [(update_dirSect alike j).1]
    exact opened.entry j
  · rw [(update_dirSect alike j).1]
    by_cases same : k = i
    · subst same
      rw [Function.update_self]
      exact outside j
    · rw [Function.update_of_ne same]
      exact opened.outside j k
  · rw [(update_dirSect alike j).1]
    by_cases member : c ∈ mine
    · exact outside j c member
    · have same := grew.fat c inside member
      exact opened.unused j c inside (same ▸ free)
  · rw [(update_dirSect alike j).1, (update_dirSect alike j).2, (update_dirSect alike k).1,
      (update_dirSect alike k).2]
    exact opened.slots j k other
  · rw [(update_dirSect alike j).1]
    dsimp only
    rw [grew.entry (opened.entry j).1 (opened.entry j).2 (outside j)]
    by_cases same : j = i
    · subst same
      rw [Function.update_self]
      intro none
      obtain ⟨before, sclust, fsize⟩ := unwritten none
      have names := opened.names j before
      exact ⟨by rw [alike.dirPtr, names.sclust, sclust], by rw [alike.dirPtr, names.fsize, fsize]⟩
    · rw [Function.update_of_ne same]
      exact opened.names j

/-- To the files of bytes it is one file in place of another. -/
theorem Session.Open.store_grew (wf : g.Wf) (opened : u.Open g cells) {i : ι} {mine : List Nat}
    {fs : Fatfs} {fp : Fil} (grew : Grew g faults (cells i) mine u.fs fs)
    (file : HasFile g fs mine fp) :
    (⟨fs, Function.update u.fp i fp⟩ : Session ι).store g (Function.update cells i mine) =
      (u.store g cells).put i (fs.blockFile g mine fp) := by
  have counted := grew.free_card wf (opened.file i).holds file.holds
  have files : (fun j => fs.blockFile g (Function.update cells i mine j)
      (Function.update u.fp i fp j)) =
      Function.update (fun j => u.fs.blockFile g (cells j) (u.fp j)) i
        (fs.blockFile g mine fp) := by
    funext j
    by_cases same : j = i
    · subst same
      rw [Function.update_self, Function.update_self, Function.update_self]
    · rw [Function.update_of_ne same, Function.update_of_ne same, Function.update_of_ne same]
      have old := opened.file j
      unfold Fatfs.blockFile
      congr 1
      refine Cells.window_congr fun k k_lt => bytes_congr wf (fun c member n here => ?_) ?_
      · exact grew.same wf (fun c => file.holds.inside) old.holds
          (opened.apart i j (Ne.symm same)) member here
      · have room := old.room
        omega
  have free : (g.free (fs.fat g)).card =
      (g.free (u.fs.fat g)).card + (cells i).length - mine.length := by omega
  unfold Session.store BlockStore.put
  simp only [files, free]
  rfl

/-! ## A directory entry -/

/-- The sector of a directory entry is changed. -/
structure Session.Noted (g : Geometry) (faults : Faults) (u : Session ι) (i : ι) (fs : Fatfs) : Prop
    extends Altered g faults (fun n => n = (u.fp i).dirSect) u.fs fs where
  entry : fs.view (u.fp i).dirSect = updated (u.fp i) (u.fs.view (u.fp i).dirSect)
  freeClust : fs.freeClust = u.fs.freeClust

omit [DecidableEq ι] in
/-- Noting a file in its entry leaves the FAT. -/
theorem Session.Noted.fat (wf : g.Wf) (opened : u.Open g cells) {i : ι} {fs : Fatfs}
    (noted : u.Noted g faults i fs) : fs.fat g = u.fs.fat g := by
  have area := noted.toAltered.area wf fun n inFat same => (opened.entry i).2 (same ▸ inFat)
  funext c
  rw [Fatfs.fat, area, Fatfs.fat]

omit [DecidableEq ι] in
/-- The files do not hold the sector of a directory entry. -/
theorem Session.Noted.same (wf : g.Wf) {i : ι} {fs : Fatfs} {other : List Nat} {sclust : Nat}
    (noted : u.Noted g faults i fs) (holds : g.Holds (u.fs.fat g) sclust other)
    (outside : g.Outside (u.fp i).dirSect other) {c n : Nat} (member : c ∈ other)
    (here : g.InCluster c n) : fs.view n = u.fs.view n :=
  noted.view n (InCluster.own wf (holds.inside member) here) fun same =>
    outside c member (same ▸ here)

/-- A file has been brought up to date. -/
theorem Session.Open.noted (wf : g.Wf) (opened : u.Open g cells) {i : ι} {fs : Fatfs}
    (noted : u.Noted g faults i fs) :
    (⟨fs, Function.update u.fp i { u.fp i with written := false }⟩ : Session ι).Open g cells := by
  have fat := noted.fat wf opened
  have alike : Alike (u.fp i) { u.fp i with written := false } :=
    ⟨rfl, rfl, rfl, rfl, rfl, rfl, rfl⟩
  refine ⟨noted.coherent, fun c inside => ?_, fun j => ?_, fun j => ?_, opened.apart, fun j => ?_,
    fun j k => ?_, fun j c inside free => ?_, fun j k other => ?_, fun j => ?_⟩
  · dsimp only
    rw [fat]
    exact opened.proper c inside
  · dsimp only
    by_cases same : j = i
    · subst same
      rw [Function.update_self]
      exact alike.usable (opened.usable j)
    · rw [Function.update_of_ne same]
      exact opened.usable j
  · have old := opened.file j
    dsimp only
    by_cases same : j = i
    · subst same
      rw [Function.update_self]
      exact ⟨by rw [fat]; exact old.holds, old.placed, old.fptr, old.room, old.fsize⟩
    · rw [Function.update_of_ne same]
      exact ⟨by rw [fat]; exact old.holds, old.placed, old.fptr, old.room, old.fsize⟩
  · rw [(update_dirSect alike j).1]
    exact opened.entry j
  · rw [(update_dirSect alike j).1]
    exact opened.outside j k
  · rw [(update_dirSect alike j).1]
    dsimp only at free
    rw [fat] at free
    exact opened.unused j c inside free
  · rw [(update_dirSect alike j).1, (update_dirSect alike j).2, (update_dirSect alike k).1,
      (update_dirSect alike k).2]
    exact opened.slots j k other
  · rw [(update_dirSect alike j).1]
    dsimp only
    by_cases same : j = i
    · subst same
      rw [Function.update_self, noted.entry]
      have names := updated_names (u.fp j) (u.fs.view (u.fp j).dirSect)
        ((opened.file j).holds.sclust_lt wf) (opened.file j).fsize
      exact fun _ => ⟨names.sclust, names.fsize⟩
    · rw [Function.update_of_ne same]
      intro unwritten
      have names := opened.names j unwritten
      by_cases shared : (u.fp j).dirSect = (u.fp i).dirSect
      · refine names.congr fun k first last => ?_
        have slots := opened.slots j i same shared
        rw [shared, noted.entry, updated_outside _ _ (by omega)]
      · rw [noted.view _ (opened.entry j).1 shared]
        exact names

/-- To the files of bytes nothing happens. -/
theorem Session.Open.store_noted (wf : g.Wf) (opened : u.Open g cells) {i : ι} {fs : Fatfs}
    (noted : u.Noted g faults i fs) :
    (⟨fs, Function.update u.fp i { u.fp i with written := false }⟩ : Session ι).store g cells =
      u.store g cells := by
  have files : (fun j => fs.blockFile g (cells j)
      (Function.update u.fp i { u.fp i with written := false } j)) =
      fun j => u.fs.blockFile g (cells j) (u.fp j) := by
    funext j
    have old := opened.file j
    have bytes : ∀ k, k < (u.fp j).fsize →
        fs.bytes g (cells j) k = u.fs.bytes g (cells j) k := fun k k_lt =>
      bytes_congr wf
        (fun c member n here => noted.same wf old.holds (opened.outside i j) member here)
        (Nat.lt_of_lt_of_le k_lt old.room)
    have window : Cells.window (fs.bytes g (cells j)) 0 (u.fp j).fsize =
        Cells.window (u.fs.bytes g (cells j)) 0 (u.fp j).fsize :=
      Cells.window_congr fun k k_lt => bytes _ (by omega)
    by_cases same : j = i
    · subst same
      rw [Function.update_self]
      simp only [Fatfs.blockFile, window]
    · rw [Function.update_of_ne same]
      simp only [Fatfs.blockFile, window]
  unfold Session.store
  simp only [files, noted.fat wf opened]

/-! ## Runs -/

/-- A file that is not open: its clusters are none of the others, and no directory entry of an open
file is in them. -/
structure Session.Beside (g : Geometry) (u : Session ι) (cells : ι → List Nat) (sclust : Nat)
    (other : List Nat) : Prop where
  holds : g.Holds (u.fs.fat g) sclust other
  apart : ∀ i, (cells i).Disjoint other
  outside : ∀ i, g.Outside (u.fp i).dirSect other

/-- What some operations leave as it was. -/
structure Session.Follows (g : Geometry) (u : Session ι) (cells : ι → List Nat) (u' : Session ι)
    (cells' : ι → List Nat) : Prop where
  opened : u'.Open g cells'
  modes : ∀ i, (u'.fp i).read = (u.fp i).read ∧ (u'.fp i).write = (u.fp i).write
  counted : u.fs.Counted g → u'.fs.Counted g
  foreign : ∀ n, g.Foreign n → u'.fs.disk.sectors n = u.fs.disk.sectors n
  mirrored : u.fs.Mirrored g → u'.fs.Mirrored g
  beside : ∀ sclust other, u.Beside g cells sclust other → u'.Beside g cells' sclust other ∧
    ∀ k, k < g.room other → u'.fs.bytes g other k = u.fs.bytes g other k

omit [DecidableEq ι] in
theorem Session.Follows.refl (opened : u.Open g cells) : u.Follows g cells u cells :=
  ⟨opened, fun _ => ⟨rfl, rfl⟩, fun counted => counted, fun _ _ => rfl, fun mirrored => mirrored,
    fun _ _ beside => ⟨beside, fun _ _ => rfl⟩⟩

omit [DecidableEq ι] in
theorem Session.Follows.trans {u' u'' : Session ι} {cells' cells'' : ι → List Nat}
    (first : u.Follows g cells u' cells') (second : u'.Follows g cells' u'' cells'') :
    u.Follows g cells u'' cells'' where
  opened := second.opened
  modes i :=
    ⟨(second.modes i).1.trans (first.modes i).1, (second.modes i).2.trans (first.modes i).2⟩
  counted counted := second.counted (first.counted counted)
  foreign n foreign := (second.foreign n foreign).trans (first.foreign n foreign)
  mirrored mirrored := second.mirrored (first.mirrored mirrored)
  beside sclust other beside := by
    obtain ⟨beside', bytes⟩ := first.beside sclust other beside
    obtain ⟨beside'', bytes'⟩ := second.beside sclust other beside'
    exact ⟨beside'', fun k k_lt => (bytes' k k_lt).trans (bytes k k_lt)⟩

/-- A file that has grown, in the session. -/
theorem Session.Open.follows_grew (wf : g.Wf) (clean : ¬ faults.Any) (opened : u.Open g cells)
    {i : ι} {mine : List Nat} {fs : Fatfs} {fp : Fil} (grew : Grew g faults (cells i) mine u.fs fs)
    (file : HasFile g fs mine fp) (alike : Alike (u.fp i) fp)
    (unwritten : fp.written = false → (u.fp i).written = false ∧ fp.sclust = (u.fp i).sclust ∧
      fp.fsize = (u.fp i).fsize) :
    u.Follows g cells ⟨fs, Function.update u.fp i fp⟩ (Function.update cells i mine) where
  opened := opened.grew wf grew file alike unwritten
  modes j := by
    dsimp only
    by_cases same : j = i
    · subst same
      rw [Function.update_self]
      exact ⟨alike.read, alike.write⟩
    · rw [Function.update_of_ne same]
      exact ⟨rfl, rfl⟩
  counted := grew.counted
  foreign := grew.changed.foreign
  mirrored := grew.changed.mirrored clean
  beside sclust other beside := by
    refine ⟨⟨grew.holds wf beside.holds (beside.apart i), fun j => ?_, fun j => ?_⟩,
      fun k k_lt => ?_⟩
    · by_cases same : j = i
      · subst same
        rw [Function.update_self]
        exact grew.disjoint wf beside.holds (beside.apart j)
      · rw [Function.update_of_ne same]
        exact beside.apart j
    · rw [(update_dirSect alike j).1]
      exact beside.outside j
    · exact bytes_congr wf (fun c member n here => grew.same wf (fun c => file.holds.inside)
        beside.holds (beside.apart i) member here) k_lt

/-- A file that has been noted in its entry, in the session. -/
theorem Session.Open.follows_noted (wf : g.Wf) (clean : ¬ faults.Any) (opened : u.Open g cells)
    {i : ι} {fs : Fatfs} (noted : u.Noted g faults i fs) :
    u.Follows g cells ⟨fs, Function.update u.fp i { u.fp i with written := false }⟩ cells where
  opened := opened.noted wf noted
  modes j := by
    dsimp only
    by_cases same : j = i
    · subst same
      rw [Function.update_self]
      exact ⟨rfl, rfl⟩
    · rw [Function.update_of_ne same]
      exact ⟨rfl, rfl⟩
  counted counted := by
    rw [Fatfs.Counted] at counted ⊢
    dsimp only
    rwa [noted.fat wf opened, noted.freeClust]
  foreign := noted.foreign
  mirrored := noted.mirrored clean
  beside sclust other beside := by
    have alike : Alike (u.fp i) { u.fp i with written := false } :=
      ⟨rfl, rfl, rfl, rfl, rfl, rfl, rfl⟩
    refine ⟨⟨?_, beside.apart, fun j => ?_⟩, fun k k_lt => ?_⟩
    · dsimp only
      rw [noted.fat wf opened]
      exact beside.holds
    · rw [(update_dirSect alike j).1]
      exact beside.outside j
    · exact bytes_congr wf (fun c member n here =>
        noted.same wf beside.holds (beside.outside i) member here) k_lt

/-- The bytes of a file behind its pointer. -/
theorem ahead_eq {cs : List Nat} {fp : Fil} (len : Nat) :
    (s.blockFile g cs fp).ahead len =
      Cells.window (s.bytes g cs) fp.fptr (min len (fp.fsize - fp.fptr)) := by
  rw [BlockFile.ahead, Fatfs.blockFile, Cells.window_part, Nat.zero_add, Nat.min_comm]

/-- A file that is kept is the same file of bytes, wherever its pointer is. -/
theorem Kept.blockFile (wf : g.Wf) (kept : Kept g faults s s') {cs : List Nat} {fp : Fil}
    (file : HasFile g s cs fp) (fp' : Fil) (fsize : fp'.fsize = fp.fsize) :
    s'.blockFile g cs fp' = { s.blockFile g cs fp with pos := fp'.fptr } := by
  unfold Fatfs.blockFile
  rw [fsize]
  congr 1
  refine Cells.window_congr fun k k_lt => bytes_congr wf (fun c member n here => ?_) ?_
  · exact kept.same (InCluster.own wf (file.holds.inside member) here)
  · have room := file.room
    omega

section Clean

variable (clean : ¬ faults.Any)
include clean

/-- One operation is one of the files of bytes. -/
theorem perform_spec (wf : g.Wf) (opened : u.Open g cells) {op : FileOp ι}
    (allowed : u.Allowed op) :
    After (perform g faults op) (fun bytes u' => ∃ cells', u.Follows g cells u' cells' ∧
      (bytes, u'.store g cells') = (u.store g cells).step (g.csize * g.ssize) 4294967296 op)
      (fun _ _ => False) u := by
  rw [after_perform]
  cases op with
  | read i len =>
    have usable := opened.usable i
    refine (fRead_spec (t := ⟨u.fs, u.fp i, []⟩) wf opened.coherent (opened.file i)
      ⟨usable.opened, usable.id, usable.error, allowed⟩ len).mono (fun _ t => ?_)
      fun _ _ failed => clean failed.1.2
    rintro ⟨kept, file, moved, clust, dsect, fp⟩
    have grew : Grew g faults (cells i) (cells i) u.fs t.fs := kept.grew wf
    have alike : Alike (u.fp i) t.fp := by
      rw [fp]
      exact ⟨rfl, rfl, rfl, rfl, rfl, rfl, rfl⟩
    refine ⟨Function.update cells i (cells i), opened.follows_grew wf clean grew file alike
      fun none => ?_, ?_⟩
    · rw [fp] at none ⊢
      exact ⟨none, rfl, rfl⟩
    · have same := kept.blockFile wf (opened.file i) t.fp (by rw [fp])
      have pos : t.fp.fptr = min ((u.fp i).fptr + len) (u.fp i).fsize := by rw [fp]
      have length : (u.fs.blockFile g (cells i) (u.fp i)).bytes.length = (u.fp i).fsize :=
        Cells.window_length _ _ _
      refine Prod.ext ?_ ((opened.store_grew wf grew file).trans ?_)
      · exact moved.trans (ahead_eq len).symm
      · rw [same, pos, ← length]
        rfl
  | write i data =>
    have usable := opened.usable i
    refine (fWrite_spec (t := ⟨u.fs, u.fp i, []⟩) clean wf opened.coherent opened.proper
      (opened.file i) ⟨usable, allowed.1⟩ allowed.2).mono (fun _ t => ?_) fun _ _ => id
    rintro ⟨mine, bytes, accepted, moved, grew, file, contents, counted, sclust, clust, dsect, fp⟩
    have alike : Alike (u.fp i) t.fp := by
      rw [fp]
      exact ⟨rfl, rfl, rfl, rfl, rfl, rfl, rfl⟩
    refine ⟨Function.update cells i mine, opened.follows_grew wf clean grew file alike fun none =>
      ?_, ?_⟩
    · rw [fp] at none
      cases none
    · refine Prod.ext (moved.trans accepted) ((opened.store_grew wf grew file).trans ?_)
      rw [contents, accepted]
      rfl
  | seek i ofs =>
    refine (fLseek_spec (t := ⟨u.fs, u.fp i, []⟩) wf opened.coherent (opened.file i)
      (opened.usable i) ofs).mono (fun _ t => ?_) fun _ _ failed => clean failed.2
    rintro ⟨kept, file, moved, clust, dsect, fp⟩
    have grew : Grew g faults (cells i) (cells i) u.fs t.fs := kept.grew wf
    have alike : Alike (u.fp i) t.fp := by
      rw [fp]
      exact ⟨rfl, rfl, rfl, rfl, rfl, rfl, rfl⟩
    refine ⟨Function.update cells i (cells i), opened.follows_grew wf clean grew file alike
      fun none => ?_, ?_⟩
    · rw [fp] at none ⊢
      exact ⟨none, rfl, rfl⟩
    · have same := kept.blockFile wf (opened.file i) t.fp (by rw [fp])
      have pos : t.fp.fptr = min ofs (u.fp i).fsize := by rw [fp]
      have length : (u.fs.blockFile g (cells i) (u.fp i)).bytes.length = (u.fp i).fsize :=
        Cells.window_length _ _ _
      refine Prod.ext moved ((opened.store_grew wf grew file).trans ?_)
      rw [same, pos, ← length]
      rfl
  | sync i =>
    cases flag : (u.fp i).written with
    | false =>
      refine (fSync_unwritten (t := ⟨u.fs, u.fp i, []⟩) (opened.usable i) flag).mono
        (fun _ t => ?_) fun _ _ => id
      rintro rfl
      refine ⟨cells, ?_, ?_⟩
      · have whole : Function.update u.fp i (u.fp i) = u.fp := Function.update_eq_self i u.fp
        change u.Follows g cells ⟨u.fs, Function.update u.fp i (u.fp i)⟩ cells
        rw [whole]
        exact .refl opened
      · have whole : Function.update u.fp i (u.fp i) = u.fp := Function.update_eq_self i u.fp
        change ([], (⟨u.fs, Function.update u.fp i (u.fp i)⟩ : Session ι).store g cells) = _
        rw [whole]
        rfl
    | true =>
      refine (fSync_spec (t := ⟨u.fs, u.fp i, []⟩) wf opened.coherent (opened.usable i)
        (opened.entry i).1 flag).mono (fun _ t => ?_) fun _ _ failed => clean failed.2
      rintro ⟨changed, entry, -, -, freeClust, moved, fp⟩
      have noted : u.Noted g faults i t.fs := ⟨changed, entry, freeClust⟩
      rw [fp]
      exact ⟨cells, opened.follows_noted wf clean noted,
        Prod.ext moved (opened.store_noted wf noted)⟩

/-- One operation after the other is one after the other of the files of bytes. -/
theorem performAll_after (wf : g.Wf) (opened : u.Open g cells) (ops : List (FileOp ι))
    (allowed : ∀ op ∈ ops, u.Allowed op) :
    After (performAll g faults ops) (fun bytes u' => ∃ cells', u.Follows g cells u' cells' ∧
      (bytes, u'.store g cells') = (u.store g cells).run (g.csize * g.ssize) 4294967296 ops)
      (fun _ _ => False) u := by
  induction ops generalizing u cells with
  | nil => exact ⟨cells, .refl opened, rfl⟩
  | cons op ops ih =>
    unfold performAll
    rw [after_bind]
    refine (perform_spec clean wf opened (allowed op List.mem_cons_self)).mono (fun bytes u₁ => ?_)
      fun _ _ => id
    rintro ⟨cells₁, follows, step⟩
    have allowed' : ∀ op' ∈ ops, u₁.Allowed op' := fun op' member => by
      have before := allowed op' (List.mem_cons_of_mem op member)
      cases op' with
      | read i len => exact (follows.modes i).1.trans before
      | write i data => exact ⟨(follows.modes i).2.trans before.1, before.2⟩
      | seek i ofs => trivial
      | sync i => trivial
    rw [after_bind]
    refine (ih follows.opened allowed').mono (fun rest u₂ => ?_) fun _ _ => id
    rintro ⟨cells₂, follows', run⟩
    refine ⟨cells₂, follows.trans follows', ?_⟩
    have bytes_eq := congrArg Prod.fst step
    have store_eq := congrArg Prod.snd step
    have rest_eq := congrArg Prod.fst run
    have last_eq := congrArg Prod.snd run
    dsimp only at bytes_eq store_eq rest_eq last_eq
    rw [bytes_eq, rest_eq, last_eq, store_eq]
    rfl

end Clean

/-! ## Mounting the disk again -/

/-- A volume that has been mounted from a disk, which nothing has been done to. -/
structure Mounted (g : Geometry) (sectors : Nat → Sector) (s : Fatfs) : Prop where
  coherent : s.Coherent g
  clean : s.wflag = false
  sectors : s.disk.sectors = sectors

/-- A file object as `f_open` leaves it, for the entry at `dirPtr` of the sector `dirSect`. -/
structure Reopened (s : Fatfs) (dirSect dirPtr : Nat) (fp : Fil) : Prop where
  dirPtr : fp.dirPtr = dirPtr
  names : Names (s.view dirSect) fp
  fptr : fp.fptr = 0

/-- Once the window has no changes, a file that has not been written since is on the disk. -/
theorem Session.Open.remounted {ι : Type} {u : Session ι} {cells : ι → List Nat}
    (opened : u.Open g cells) (clean : u.fs.wflag = false) (mounted : Mounted g u.fs.disk.sectors s)
    {i : ι} (unwritten : (u.fp i).written = false) {fp : Fil}
    (reopened : Reopened s (u.fp i).dirSect (u.fp i).dirPtr fp) :
    HasFile g s (cells i) fp ∧
      (s.blockFile g (cells i) fp).bytes = (u.fs.blockFile g (cells i) (u.fp i)).bytes := by
  have view : s.view = u.fs.view := funext fun n => by
    rw [view_clean mounted.coherent mounted.clean, mounted.sectors,
      view_clean opened.coherent clean]
  have area : s.area g = u.fs.area g := by
    unfold Fatfs.area
    rw [view]
  have fat : s.fat g = u.fs.fat g := by
    unfold Fatfs.fat
    rw [area]
  have bytes : s.bytes g (cells i) = u.fs.bytes g (cells i) := by
    unfold Fatfs.bytes
    rw [view]
  have entry := opened.names i unwritten
  have file := opened.file i
  have names := reopened.names
  rw [view] at names
  have sclust : fp.sclust = (u.fp i).sclust := by
    rw [← names.sclust, reopened.dirPtr, entry.sclust]
  have fsize : fp.fsize = (u.fp i).fsize := by
    rw [← names.fsize, reopened.dirPtr, entry.fsize]
  refine ⟨⟨by rw [fat, sclust]; exact file.holds, ⟨fun positive => ?_, fun inside => ?_⟩, ?_, ?_,
    ?_⟩, ?_⟩
  · exact absurd positive (by rw [reopened.fptr]; exact Nat.lt_irrefl 0)
  · exact absurd (by rw [reopened.fptr, Nat.zero_mod]) inside
  · rw [reopened.fptr]
    exact Nat.zero_le _
  · rw [fsize]
    exact file.room
  · rw [fsize]
    exact file.fsize
  · rw [Fatfs.blockFile, Fatfs.blockFile, bytes, fsize]

/-! ## Main results -/

/-- Whatever is done to the files that are open, in whatever order: no operation fails, the bytes
that they move and the files behind them are those of the files of bytes, the count of the free
clusters is right, a file that is not open stays as it is, and so does what is not of the volume. -/
theorem sessions_refine {ι : Type} [DecidableEq ι] {u : Session ι} {cells : ι → List Nat}
    (clean : ¬ faults.Any) (wf : g.Wf) (opened : u.Open g cells) (ops : List (FileOp ι))
    (allowed : ∀ op ∈ ops, u.Allowed op) :
    ∃ outs u' cells', (performAll g faults ops).runFrom u = (.ok outs, u') ∧ u'.Open g cells' ∧
      (outs, u'.store g cells') = (u.store g cells).run (g.csize * g.ssize) 4294967296 ops ∧
      (u.fs.Counted g → u'.fs.Counted g) ∧
      (∀ n, g.Foreign n → u'.fs.disk.sectors n = u.fs.disk.sectors n) ∧
      ∀ sclust other, u.Beside g cells sclust other → u'.Beside g cells' sclust other ∧
        ∀ k, k < g.room other → u'.fs.bytes g other k = u.fs.bytes g other k := by
  obtain ⟨outs, u', result, cells', follows, run⟩ :=
    (performAll_after clean wf opened ops allowed).result
  exact ⟨outs, u', cells', result, follows.opened, run, follows.counted, follows.foreign,
    follows.beside⟩

/-- A file of the small volume without a cluster. -/
def emptyFil : Fil := { smallFil with fsize := 0, sclust := 0, dirPtr := 32 }

/-- The small volume with its file open, and with one to come. -/
def smallSession : Session Bool := ⟨smallFs, fun i => if i then emptyFil else smallFil⟩

def smallCells (i : Bool) : List Nat := if i then [] else [2]

/-- An empty file of the small volume. -/
theorem emptyFil_file : HasFile small smallFs [] emptyFil where
  holds := rfl
  placed := ⟨fun positive => absurd positive (Nat.lt_irrefl 0), fun inside => absurd rfl inside⟩
  fptr := by decide
  room := by decide
  fsize := by decide

/-- The session with two files. -/
theorem small_open : smallSession.Open small smallCells where
  coherent := small_coherent
  proper c inside := by
    have below : c < 10 := inside.2
    have all : ∀ c < 10, smallFs.fat small c ≠ 1 := by decide +kernel
    exact all c below
  usable i := by cases i <;> exact ⟨rfl, rfl, rfl⟩
  file i := by
    cases i with
    | false => exact small_file
    | true => exact emptyFil_file
  apart i j other := by
    cases i <;> cases j
    · exact absurd rfl other
    · exact List.disjoint_nil_right _
    · exact List.disjoint_nil_left _
    · exact absurd rfl other
  entry i := by
    have place : (smallSession.fp i).dirSect = 3 := by cases i <;> rfl
    rw [place]
    exact ⟨⟨by decide, .inr (by decide), by decide⟩, fun fat => absurd fat.2 (by decide)⟩
  outside i j c member here := by
    have place : (smallSession.fp i).dirSect = 3 := by cases i <;> rfl
    have cluster : c = 2 := by
      cases j with
      | false => exact List.mem_singleton.1 member
      | true => cases member
    rw [place, cluster] at here
    exact absurd here.1 (show ¬ clust2sect small 2 ≤ 3 by decide)
  unused i c inside free here := by
    have place : (smallSession.fp i).dirSect = 3 := by cases i <;> rfl
    have below : c < 10 := inside.2
    have all : ∀ c < 10, 2 ≤ c → ¬ clust2sect small c ≤ 3 := by decide
    rw [place] at here
    exact all c below inside.1 here.1
  slots i j other _ := by
    cases i <;> cases j
    · exact absurd rfl other
    · exact .inl (by decide)
    · exact .inr (by decide)
    · exact absurd rfl other
  names i _ := by
    cases i with
    | false =>
      change Names (smallFs.view 3) smallFil
      exact ⟨by decide +kernel, by decide +kernel⟩
    | true =>
      change Names (smallFs.view 3) emptyFil
      exact ⟨by decide +kernel, by decide +kernel⟩

/-- Both files are written, and what is in the first one is read. -/
@[irreducible]
def smallOps : List (FileOp Bool) :=
  [.write true [5, 6], .write false [1, 2, 3, 4], .seek false 1, .read false 2]

/-- The calls may be made. -/
theorem smallOps_allowed : ∀ op ∈ smallOps, smallSession.Allowed op := by
  intro op member
  simp only [smallOps, List.mem_cons, List.not_mem_nil, or_false] at member
  rcases member with rfl | rfl | rfl | rfl
  · exact ⟨rfl, by decide⟩
  · exact ⟨rfl, by decide⟩
  · trivial
  · exact rfl

theorem small_session_refines : ∃ outs u' cells',
    (performAll small .never smallOps).runFrom smallSession = (.ok outs, u') ∧
      u'.Open small cells' ∧
      (outs, u'.store small cells') =
        (smallSession.store small smallCells).run (small.csize * small.ssize) 4294967296 smallOps ∧
      (smallSession.fs.Counted small → u'.fs.Counted small) ∧
      (∀ n, small.Foreign n → u'.fs.disk.sectors n = smallSession.fs.disk.sectors n) ∧
      ∀ sclust other, smallSession.Beside small smallCells sclust other →
        u'.Beside small cells' sclust other ∧
        ∀ k, k < small.room other → u'.fs.bytes small other k =
          smallSession.fs.bytes small other k :=
  sessions_refine never_fails small_wf small_open smallOps smallOps_allowed

/-- Whatever has been done to the files: once a file that has been written is brought up to date,
the disk holds all files that have not been written since, as they are, and the copies of the FAT
are the same. -/
theorem synced_on_disk {ι : Type} [DecidableEq ι] {u : Session ι} {cells : ι → List Nat}
    (clean : ¬ faults.Any) (wf : g.Wf) (opened : u.Open g cells) (mirrored : u.fs.Mirrored g)
    (ops : List (FileOp ι)) (allowed : ∀ op ∈ ops, u.Allowed op) (i : ι) :
    After (performAll g faults ops) (fun _ u₁ => (u₁.fp i).written = true →
      After (perform g faults (.sync i)) (fun _ u₂ => ∃ cells',
        u₂.Open g cells' ∧ u₂.store g cells' =
          ((u.store g cells).run (g.csize * g.ssize) 4294967296 ops).2 ∧
        (u₂.fp i).written = false ∧
        (∀ j, (u₂.fp j).written = false → ∀ s, Mounted g u₂.fs.disk.sectors s → ∀ fp,
          Reopened s (u₂.fp j).dirSect (u₂.fp j).dirPtr fp → HasFile g s (cells' j) fp ∧
          (s.blockFile g (cells' j) fp).bytes = ((u₂.store g cells').file j).bytes) ∧
        ∀ n, g.fatbase ≤ n → n < g.fatbase + g.fsize → ∀ k, k < g.nFats →
          u₂.fs.disk.sectors (n + k * g.fsize) = u₂.fs.disk.sectors n) (fun _ _ => False) u₁)
      (fun _ _ => False) u := by
  refine (performAll_after clean wf opened ops allowed).mono (fun bytes u₁ => ?_) fun _ _ => id
  rintro ⟨cells₁, follows, run⟩ written
  have store₁ := congrArg Prod.snd run
  dsimp only at store₁
  have open₁ := follows.opened
  rw [after_perform]
  refine (fSync_spec (t := ⟨u₁.fs, u₁.fp i, []⟩) wf open₁.coherent (open₁.usable i)
    (open₁.entry i).1 written).mono (fun _ t => ?_) fun _ _ failed => clean failed.2
  rintro ⟨changed, entry, unchanged, -, freeClust, moved, fp⟩
  have noted : u₁.Noted g faults i t.fs := ⟨changed, entry, freeClust⟩
  have follows' := open₁.follows_noted wf clean noted
  rw [fp]
  refine ⟨cells₁, follows'.opened, (open₁.store_noted wf noted).trans store₁, ?_,
    fun j unwritten s mounted fp' reopened =>
      follows'.opened.remounted unchanged mounted unwritten reopened,
    fun n first last => (follows'.mirrored (follows.mirrored mirrored)) n first last fun dirty =>
      absurd (unchanged.symm.trans dirty) Bool.false_ne_true⟩
  change (Function.update u₁.fp i _ i).written = false
  rw [Function.update_self]

theorem small_synced : After (performAll small .never smallOps) (fun _ u₁ =>
    (u₁.fp true).written = true →
      After (perform small .never (.sync true)) (fun _ u₂ => ∃ cells',
        u₂.Open small cells' ∧ u₂.store small cells' =
          ((smallSession.store small smallCells).run (small.csize * small.ssize) 4294967296
            smallOps).2 ∧
        (u₂.fp true).written = false ∧
        (∀ j, (u₂.fp j).written = false → ∀ s, Mounted small u₂.fs.disk.sectors s → ∀ fp,
          Reopened s (u₂.fp j).dirSect (u₂.fp j).dirPtr fp → HasFile small s (cells' j) fp ∧
          (s.blockFile small (cells' j) fp).bytes = ((u₂.store small cells').file j).bytes) ∧
        ∀ n, small.fatbase ≤ n → n < small.fatbase + small.fsize → ∀ k, k < small.nFats →
          u₂.fs.disk.sectors (n + k * small.fsize) = u₂.fs.disk.sectors n) (fun _ _ => False) u₁)
    (fun _ _ => False) smallSession :=
  synced_on_disk never_fails small_wf small_open small_mirrored smallOps smallOps_allowed true

end D2xCios.FatFs
