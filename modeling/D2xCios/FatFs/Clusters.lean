import D2xCios.FatFs.Table
import D2xCios.Lib.Chains
import Mathlib.Data.Finset.Card
import Mathlib.Order.Interval.Finset.Nat

/-!
# Cluster chains

`create_chain` looks for a free cluster behind the one that is to be followed, or behind the one
that has been allocated last, through the whole FAT, and links it. `remove_chain` gives the
clusters of a chain back one after the other.
-/

namespace D2xCios.FatFs

open D2xCios.Lib

variable (g : Geometry) (faults : Faults)

/-! ## The source -/

/-- `free_clust` and `fsi_flag` once a cluster has been given back. -/
def countFreed : FsM Unit := modify fun s =>
  if s.freeClust ≠ 0xFFFFFFFF then
    { s with freeClust := (s.freeClust + 1) % 4294967296, fsiFlag := true }
  else s

/-- The loop of `remove_chain`. -/
def removeLoop : (fuel : Nat) → (clst : Nat) → FsM Unit
  | 0, _ => return
  | fuel + 1, clst => do
    if clst < g.nFatent then
      let nxt ← getFat g faults clst
      if nxt = 0 then return
      else if nxt = 1 then throw .intErr
      else if nxt = 0xFFFFFFFF then throw .diskErr
      else
        putFat g faults clst 0
        countFreed
        removeLoop fuel nxt

/-- `remove_chain` -/
def removeChain (clst : Nat) : FsM Unit :=
  if clst < 2 ∨ g.nFatent ≤ clst then throw .intErr
  else removeLoop g faults g.nFatent clst

/-- The loop of `create_chain`: the free cluster, or what is returned at once. -/
def searchLoop (scl : Nat) : (fuel : Nat) → (ncl : Nat) → FsM (Except Nat Nat)
  | 0, _ => return .error 0
  | fuel + 1, ncl => do
    let ncl := ncl + 1
    if g.nFatent ≤ ncl ∧ 2 > scl then return .error 0
    else
      let ncl := if g.nFatent ≤ ncl then 2 else ncl
      let cs ← getFat g faults ncl
      if cs = 0 then return .ok ncl
      else if cs = 0xFFFFFFFF ∨ cs = 1 then return .error cs
      else if ncl = scl then return .error 0
      else searchLoop scl fuel ncl

/-- `last_clust`, `free_clust` and `fsi_flag` once a cluster has been allocated. -/
def countTaken (ncl : Nat) : FsM Unit := modify fun s =>
  if s.freeClust ≠ 0xFFFFFFFF then
    { s with
      lastClust := ncl, freeClust := (s.freeClust + 4294967295) % 4294967296, fsiFlag := true }
  else { s with lastClust := ncl }

/-- The part of `create_chain` that looks for a cluster behind `scl` and links it. -/
def allocate (clst scl : Nat) : FsM Nat := do
  match ← searchLoop g faults scl g.nFatent scl with
  | .error code => return code
  | .ok ncl =>
    tryCatch (do
      putFat g faults ncl 0x0FFFFFFF
      if clst ≠ 0 then putFat g faults clst ncl
      countTaken ncl
      return ncl)
      fun e => return if e = .diskErr then 0xFFFFFFFF else 1

/-- `create_chain`: 0 if no cluster is free, 1 for an internal error, 0xFFFFFFFF for one of the
disk. -/
def createChain (clst : Nat) : FsM Nat := do
  if clst = 0 then
    let fs ← get
    allocate g faults clst
      (if fs.lastClust = 0 ∨ g.nFatent ≤ fs.lastClust then 1 else fs.lastClust)
  else
    let cs ← getFat g faults clst
    if cs < 2 then return 1
    else if cs < g.nFatent then return cs
    else allocate g faults clst clst

/-! ## The clusters -/

/-- The clusters, and the marks behind them. -/
def Geometry.links : Links Nat where
  Inside c := 2 ≤ c ∧ c < g.nFatent
  Ends c := g.nFatent ≤ c
  apart _ inside ends := Nat.not_le.2 inside.2 ends

/-- The clusters that are free. -/
def Geometry.free (fat : Nat → Nat) : Finset Nat :=
  (Finset.Ico 2 g.nFatent).filter fun c => fat c = 0

/-- The clusters that are not. -/
def Geometry.used (fat : Nat → Nat) : Finset Nat :=
  (Finset.Ico 2 g.nFatent).filter fun c => fat c ≠ 0

/-- `free_clust` is unknown, or how many clusters are free. -/
def Fatfs.Counted (s : Fatfs) : Prop :=
  s.freeClust = 0xFFFFFFFF ∨ s.freeClust = (g.free (s.fat g)).card

variable {g faults} {s : Fatfs}

/-- A free cluster has the entry 0. -/
theorem mem_free {fat : Nat → Nat} {c : Nat} :
    c ∈ g.free fat ↔ g.links.Inside c ∧ fat c = 0 := by
  rw [Geometry.free, Finset.mem_filter, Finset.mem_Ico]
  rfl

/-- A used cluster has another entry. -/
theorem mem_used {fat : Nat → Nat} {c : Nat} :
    c ∈ g.used fat ↔ g.links.Inside c ∧ fat c ≠ 0 := by
  rw [Geometry.used, Finset.mem_filter, Finset.mem_Ico]
  rfl

theorem free_card_lt (fat : Nat → Nat) (some : 2 ≤ g.nFatent) : (g.free fat).card < g.nFatent := by
  have all := Finset.card_filter_le (Finset.Ico 2 g.nFatent) fun c => fat c = 0
  rw [Nat.card_Ico] at all
  unfold Geometry.free
  omega

theorem used_card_le (fat : Nat → Nat) : (g.used fat).card ≤ g.nFatent := by
  have all := Finset.card_filter_le (Finset.Ico 2 g.nFatent) fun c => fat c ≠ 0
  rw [Nat.card_Ico] at all
  unfold Geometry.used
  omega

/-- A cluster is given back. -/
theorem free_update_zero {fat : Nat → Nat} {c : Nat} (inside : g.links.Inside c)
    (used : fat c ≠ 0) :
    (g.free (Function.update fat c 0)).card = (g.free fat).card + 1 := by
  have set : g.free (Function.update fat c 0) = insert c (g.free fat) := by
    ext d
    rw [Finset.mem_insert, mem_free, mem_free]
    by_cases same : d = c
    · subst same
      simp [inside]
    · simp [same]
  rw [set, Finset.card_insert_of_notMem fun member => used (mem_free.1 member).2]

theorem used_update_zero {fat : Nat → Nat} {c : Nat} (inside : g.links.Inside c)
    (used : fat c ≠ 0) :
    (g.used (Function.update fat c 0)).card + 1 = (g.used fat).card := by
  have set : g.used (Function.update fat c 0) = (g.used fat).erase c := by
    ext d
    rw [Finset.mem_erase, mem_used, mem_used]
    by_cases same : d = c
    · subst same
      simp
    · simp [same]
  rw [set, Finset.card_erase_add_one (mem_used.2 ⟨inside, used⟩)]

/-- A cluster is taken. -/
theorem free_update_some {fat : Nat → Nat} {c v : Nat} (inside : g.links.Inside c)
    (free : fat c = 0)
    (some : v ≠ 0) : (g.free (Function.update fat c v)).card + 1 = (g.free fat).card := by
  have set : g.free (Function.update fat c v) = (g.free fat).erase c := by
    ext d
    rw [Finset.mem_erase, mem_free, mem_free]
    by_cases same : d = c
    · subst same
      simp [some]
    · simp [same]
  rw [set, Finset.card_erase_add_one (mem_free.2 ⟨inside, free⟩)]

/-! ## What the entries do -/

theorem fat_lt (c : Nat) : s.fat g c < 268435456 := by
  have entry := g.fsType.packing.get_lt (s.area g) c
  have size : g.fsType.packing.size ≤ 268435456 := by
    cases g.fsType <;> decide
  exact Nat.lt_of_lt_of_le entry size

theorem Geometry.Wf.nFatent_lt (wf : g.Wf) : g.nFatent < 268435456 := by
  have size : g.fsType.packing.size ≤ 268435456 := by
    cases g.fsType <;> decide
  exact Nat.lt_of_lt_of_le wf.nFatent size

/-- The FAT with one entry set. -/
theorem Entered.fat {s' : Fatfs} {clst val : Nat} (entered : Entered g faults clst val s s') :
    s'.fat g = Function.update (s.fat g) clst (val % g.fsType.packing.size) := by
  funext c
  by_cases same : c = clst
  · subst same
    rw [entered.fat_same, Function.update_self]
  · rw [entered.fat_other same, Function.update_of_ne same]

/-- The count of free clusters is kept. -/
theorem Kept.freeClust {s' : Fatfs} (kept : Kept g faults s s') : s'.freeClust = s.freeClust :=
  congrArg (fun c => c.2.2) kept.counts

/-- A right count stays right. -/
theorem Kept.counted {s' : Fatfs} (wf : g.Wf) (kept : Kept g faults s s') :
    s'.Counted g ↔ s.Counted g := by
  rw [Fatfs.Counted, Fatfs.Counted, kept.fat wf, kept.freeClust]

/-- What is known of the free clusters does not touch the volume. -/
theorem changed_counts {W : Nat → Prop} (coherent : s.Coherent g) (fsiFlag : Bool)
    (lastClust freeClust : Nat) : Changed g faults W s
      { s with fsiFlag := fsiFlag, lastClust := lastClust, freeClust := freeClust } :=
  ⟨⟨fun _ _ _ => rfl, ⟨coherent.winsect, coherent.clean, coherent.dirty⟩, fun _ => id,
    fun _ _ => rfl⟩, fun _ _ => rfl⟩

/-! ## Giving a chain back -/

/-- A cluster is given back and counted. -/
theorem countFreed_spec {clst : Nat} {s₀ : Fatfs} (wf : g.Wf) (inside : g.links.Inside clst)
    (used : s₀.fat g clst ≠ 0) (entered : Entered g faults clst 0 s₀ s) :
    After countFreed (fun _ s' => Changed g faults g.InFat s₀ s' ∧
      s'.fat g = Function.update (s₀.fat g) clst 0 ∧ (s₀.Counted g → s'.Counted g))
      (fun _ _ => False) s := by
  have fat := entered.fat
  rw [Nat.zero_mod] at fat
  have counts : s.freeClust = s₀.freeClust := congrArg (fun c => c.2.2) entered.counts
  unfold countFreed
  rw [after_modify]
  split
  case isFalse unknown =>
    rw [not_not] at unknown
    exact ⟨entered.toChanged, fat, fun _ => .inl unknown⟩
  case isTrue known =>
    refine ⟨entered.toChanged.trans (changed_counts entered.coherent _ _ _), fat,
      fun counted => .inr ?_⟩
    have exact_count := counted.resolve_left (counts ▸ known)
    have more := free_update_zero (g := g) inside used
    have bound := free_card_lt (g := g) (s₀.fat g) (by
      have range := inside
      exact Nat.le_of_lt (Nat.lt_of_le_of_lt range.1 range.2))
    have limit := wf.nFatent_lt
    change (s.freeClust + 1) % 4294967296 = (g.free (s.fat g)).card
    rw [fat, more, counts, exact_count]
    omega

variable (g faults) in
/-- The clusters on the way from `clst` to `stop` have been given back, and nothing else has been
changed. The count of the free ones stays right. -/
structure GivenBack (clst : Nat) (cells : List Nat) (stop : Nat) (s s' : Fatfs) : Prop extends
    Changed g faults g.InFat s s' where
  path : IsPath g.links (s.fat g) clst cells stop
  linked : ∀ c ∈ cells, 2 ≤ s.fat g c
  fat : s'.fat g = freed (s.fat g) 0 cells
  counted : s.Counted g → s'.Counted g

/-- If nothing has changed, nothing has been given back. -/
theorem Kept.givenBack {s' : Fatfs} (wf : g.Wf) (kept : Kept g faults s s') (clst : Nat) :
    GivenBack g faults clst [] clst s s' where
  toChanged := kept.changed
  path := rfl
  linked := nofun
  fat := (kept.fat wf).trans (freed_nil 0).symm
  counted := (kept.counted wf).2

/-- One more cluster in front of those that are given back. -/
theorem GivenBack.cons {s₁ s' : Fatfs} {clst stop : Nat} {cells : List Nat}
    (inside : g.links.Inside clst) (linked : 2 ≤ s.fat g clst)
    (changed : Changed g faults g.InFat s s₁)
    (fat : s₁.fat g = Function.update (s.fat g) clst 0) (counted : s.Counted g → s₁.Counted g)
    (rest : GivenBack g faults (s.fat g clst) cells stop s₁ s') :
    GivenBack g faults clst (clst :: cells) stop s s' := by
  have apart : clst ∉ cells := fun member => by
    have link := rest.linked clst member
    rw [fat, Function.update_self] at link
    omega
  have same : ∀ d ∈ cells, s.fat g d = s₁.fat g d := fun d member => by
    have other : d ≠ clst := fun equal => apart (equal ▸ member)
    rw [fat, Function.update_of_ne other]
  refine ⟨changed.trans rest.toChanged, ⟨rfl, inside, rest.path.congr same⟩, ?_, ?_,
    fun before => rest.counted (counted before)⟩
  · intro c member
    rcases List.mem_cons.1 member with rfl | later
    · exact linked
    · rw [same c later]
      exact rest.linked c later
  · rw [rest.fat, fat, freed_cons]

/-- The loop gives back the clusters on the way from `clst` to a mark or to a cluster that is free,
and be it one that it has given back itself. The mark 1 stops it with an error. -/
theorem removeLoop_spec (wf : g.Wf) (fuel : Nat) {clst : Nat} (coherent : s.Coherent g)
    (two_le : 2 ≤ clst) (enough : (g.used (s.fat g)).card ≤ fuel) :
    After (removeLoop g faults fuel clst)
      (fun _ s' => ∃ cells stop, GivenBack g faults clst cells stop s s' ∧
        (g.nFatent ≤ stop ∨ g.links.Inside stop ∧ s'.fat g stop = 0))
      (fun e s' => Broken faults e ∨ e = .intErr ∧ ∃ cells stop,
        GivenBack g faults clst cells stop s s' ∧ g.links.Inside stop ∧ s'.fat g stop = 1) s := by
  induction fuel generalizing s clst with
  | zero =>
    refine ⟨[], clst, (Kept.refl coherent).givenBack wf clst, ?_⟩
    by_contra some
    rw [not_or, Nat.not_le] at some
    have inside : g.links.Inside clst := ⟨two_le, some.1⟩
    have member : clst ∈ g.used (s.fat g) :=
      mem_used.2 ⟨inside, fun free => some.2 ⟨inside, free⟩⟩
    have pos := Finset.card_pos.2 ⟨clst, member⟩
    omega
  | succ fuel ih =>
    unfold removeLoop
    split
    case isFalse behind =>
      exact ⟨[], clst, (Kept.refl coherent).givenBack wf clst, .inl (Nat.not_lt.1 behind)⟩
    case isTrue clst_lt =>
      have inside : g.links.Inside clst := ⟨two_le, clst_lt⟩
      rw [after_bind]
      refine (getFat_spec wf coherent two_le clst_lt).mono (fun nxt s₁ => ?_) fun _ _ => False.elim
      rintro (⟨rfl, kept⟩ | ⟨rfl, broken⟩)
      case inr => exact .inl ⟨rfl, broken⟩
      case inl =>
        have fat₁ := kept.fat wf
        have entry := fat_lt (g := g) (s := s) clst
        have here := congrFun fat₁ clst
        split
        case isTrue free =>
          exact ⟨[], clst, kept.givenBack wf clst, .inr ⟨inside, here.trans free⟩⟩
        case isFalse used =>
          split
          case isTrue reserved =>
            exact .inr ⟨rfl, [], clst, kept.givenBack wf clst, inside, here.trans reserved⟩
          case isFalse proper =>
            rw [if_neg (by omega), after_bind]
            refine (putFat_spec wf kept.coherent two_le clst_lt).mono (fun _ s₂ => ?_)
              fun _ _ => .inl
            intro entered
            rw [after_bind]
            refine (countFreed_spec wf inside (by rw [fat₁]; exact used) entered).mono
              (fun _ s₃ => ?_) fun _ _ => False.elim
            rintro ⟨changed, fat₃, counted⟩
            rw [fat₁] at fat₃
            have fewer := used_update_zero (g := g) inside used
            have more {cells : List Nat} {stop : Nat} {s' : Fatfs}
                (rest : GivenBack g faults (s.fat g clst) cells stop s₃ s') :
                GivenBack g faults clst (clst :: cells) stop s s' :=
              .cons inside (by omega) (kept.changed.trans changed) fat₃
                (fun before => counted ((kept.counted wf).2 before)) rest
            refine (ih changed.coherent (by omega) (by rw [fat₃]; omega)).mono (fun _ s₄ => ?_)
              fun e s₄ => ?_
            · rintro ⟨cells, stop, back, stops⟩
              exact ⟨clst :: cells, stop, more back, stops⟩
            · rintro (broken | ⟨rfl, cells, stop, back, stops⟩)
              · exact .inl broken
              · exact .inr ⟨rfl, clst :: cells, stop, more back, stops⟩

/-- `remove_chain` comes to an end on every FAT, with a cycle in it or not: it gives back the
clusters on the way to a mark or to a cluster that is free, and changes no other entry and no sector
outside the FAT. The count of the free clusters stays right. It gives up at a cluster whose entry is
the reserved 1, and has given back those before it then. -/
theorem removeChain_frees (wf : g.Wf) (coherent : s.Coherent g) {clst : Nat}
    (inside : g.links.Inside clst) :
    After (removeChain g faults clst)
      (fun _ s' => ∃ cells stop, GivenBack g faults clst cells stop s s' ∧
        (g.nFatent ≤ stop ∨ g.links.Inside stop ∧ s'.fat g stop = 0))
      (fun e s' => Broken faults e ∨ e = .intErr ∧ ∃ cells stop,
        GivenBack g faults clst cells stop s s' ∧ g.links.Inside stop ∧ s'.fat g stop = 1) s := by
  have range := inside
  unfold removeChain
  rw [if_neg (not_or.2 ⟨Nat.not_lt.2 range.1, Nat.not_le.2 range.2⟩)]
  exact removeLoop_spec wf g.nFatent coherent range.1 (used_card_le _)

/-- The small volume with other links: from 2 to 3, from there to 4, and from there back to 3. -/
def cyclicFs : Fatfs :=
  { smallFs with
    disk := { smallDisk with
      sectors := fun n => if n = 1 ∨ n = 2 then ([0xF8, 0xFF, 0xFF, 3, 0x40, 0, 3].getD · 0)
        else smallDisk.sectors n } }

/-- The volume with the cyclic chain has just been mounted. -/
theorem cyclicFs_coherent : cyclicFs.Coherent small where
  winsect := by decide
  clean _ inside := absurd rfl inside
  dirty := nofun

theorem small_removeChain_frees :
    After (removeChain small .never 2)
      (fun _ s' => ∃ cells stop, GivenBack small .never 2 cells stop cyclicFs s' ∧
        (small.nFatent ≤ stop ∨ small.links.Inside stop ∧ s'.fat small stop = 0))
      (fun e s' => Broken .never e ∨ e = .intErr ∧ ∃ cells stop,
        GivenBack small .never 2 cells stop cyclicFs s' ∧ small.links.Inside stop ∧
          s'.fat small stop = 1) cyclicFs :=
  removeChain_frees small_wf cyclicFs_coherent ⟨by decide, by decide⟩

/-! ## Taking a cluster -/

section Clean

/-! From here on no operation of the disk fails: `create_chain` takes a FAT that cannot be read for
the end of a chain. -/

variable (clean : ¬ faults.Any)
include clean

/-- An entry that is inside the FAT is read without fail on a disk without faults. -/
theorem getFat_clean (wf : g.Wf) (coherent : s.Coherent g) {clst : Nat}
    (inside : g.links.Inside clst) :
    After (getFat g faults clst) (fun r s' => r = s.fat g clst ∧ Kept g faults s s')
      (fun _ _ => False) s :=
  (getFat_spec wf coherent inside.1 inside.2).mono
    (fun _ _ => fun outcome => outcome.resolve_right fun broken => clean broken.2) fun _ _ => id

/-- An entry that is inside the FAT is set without fail on a disk without faults. -/
theorem putFat_clean (wf : g.Wf) (coherent : s.Coherent g) {clst val : Nat}
    (inside : g.links.Inside clst) :
    After (putFat g faults clst val) (fun _ s' => Entered g faults clst val s s')
      (fun _ _ => False) s :=
  (putFat_spec wf coherent inside.1 inside.2).mono (fun _ _ => id)
    fun _ _ broken => clean broken.2

/-- What the search yields: a free cluster, or 0 if there is none. -/
def Found (g : Geometry) (faults : Faults) (s : Fatfs) (r : Except Nat Nat) (s' : Fatfs) : Prop :=
  Kept g faults s s' ∧
    ((∃ ncl, r = .ok ncl ∧ g.links.Inside ncl ∧ s.fat g ncl = 0) ∨
      r = .error 0 ∧ g.free (s.fat g) = ∅)

/-- One cluster is looked at. -/
theorem search_step (wf : g.Wf) {s₁ : Fatfs} (kept : Kept g faults s s₁)
    (proper : ∀ c, g.links.Inside c → s.fat g c ≠ 1) {ncl : Nat} (inside : g.links.Inside ncl)
    {rest : FsM (Except Nat Nat)}
    (next : ∀ s', Kept g faults s s' → s.fat g ncl ≠ 0 →
      After rest (Found g faults s) (fun _ _ => False) s') :
    After (do
      let cs ← getFat g faults ncl
      if cs = 0 then return .ok ncl
      else if cs = 0xFFFFFFFF ∨ cs = 1 then return .error cs
      else rest) (Found g faults s) (fun _ _ => False) s₁ := by
  rw [after_bind]
  refine (getFat_clean clean wf kept.coherent inside).mono (fun cs s₂ => ?_) fun _ _ => id
  rintro ⟨rfl, kept'⟩
  rw [kept.fat wf]
  have entry := fat_lt (g := g) (s := s) ncl
  split
  case isTrue free => exact ⟨kept.trans kept', .inl ⟨ncl, rfl, inside, free⟩⟩
  case isFalse used =>
    rw [if_neg (not_or.2 ⟨by omega, proper ncl inside⟩)]
    exact next s₂ (kept.trans kept') used

/-- Once the search has gone back to the first cluster, it goes on up to where it has started. -/
theorem searchLoop_wrapped (wf : g.Wf) (proper : ∀ c, g.links.Inside c → s.fat g c ≠ 1)
    {scl : Nat} (scl_lt : scl < g.nFatent) (fuel : Nat) {ncl : Nat} {s₁ : Fatfs}
    (kept : Kept g faults s s₁) (two_le : 2 ≤ ncl) (ncl_lt : ncl < scl)
    (enough : scl ≤ ncl + fuel)
    (seen : ∀ c, g.links.Inside c → c ≤ ncl ∨ scl < c → s.fat g c ≠ 0) :
    After (searchLoop g faults scl fuel ncl) (Found g faults s) (fun _ _ => False) s₁ := by
  induction fuel generalizing ncl s₁ with
  | zero => omega
  | succ fuel ih =>
    unfold searchLoop
    rw [if_neg (by omega), if_neg (by omega)]
    refine search_step clean wf kept proper ⟨by omega, by omega⟩ fun s₂ kept' used => ?_
    have seen' : ∀ c, g.links.Inside c → c ≤ ncl + 1 ∨ scl < c → s.fat g c ≠ 0 := by
      intro c inside place
      by_cases same : c = ncl + 1
      · rwa [same]
      · exact seen c inside (by omega)
    split
    case isTrue last =>
      refine ⟨kept', .inr ⟨rfl, Finset.eq_empty_of_forall_notMem fun c member => ?_⟩⟩
      exact seen' c (mem_free.1 member).1 (by omega) (mem_free.1 member).2
    case isFalse more => exact ih kept' (by omega) (by omega) (by omega) seen'

/-- The search looks at all clusters behind `scl`, and then at the other ones. -/
theorem searchLoop_spec (wf : g.Wf) (proper : ∀ c, g.links.Inside c → s.fat g c ≠ 1)
    {scl : Nat} (scl_pos : 1 ≤ scl) (fuel : Nat) {ncl : Nat} {s₁ : Fatfs}
    (kept : Kept g faults s s₁) (scl_le : scl ≤ ncl) (ncl_lt : ncl < g.nFatent)
    (enough : g.nFatent + scl ≤ ncl + 1 + fuel)
    (seen : ∀ c, g.links.Inside c → scl < c → c ≤ ncl → s.fat g c ≠ 0) :
    After (searchLoop g faults scl fuel ncl) (Found g faults s) (fun _ _ => False) s₁ := by
  induction fuel generalizing ncl s₁ with
  | zero => omega
  | succ fuel ih =>
    unfold searchLoop
    by_cases wraps : g.nFatent ≤ ncl + 1
    case neg =>
      rw [if_neg fun both => wraps both.1, if_neg wraps]
      refine search_step clean wf kept proper ⟨by omega, by omega⟩ fun s₂ kept' used => ?_
      rw [if_neg (by omega)]
      refine ih kept' (by omega) (by omega) (by omega) fun c inside above below => ?_
      by_cases same : c = ncl + 1
      · rwa [same]
      · exact seen c inside above (by omega)
    case pos =>
      by_cases first : 2 > scl
      case pos =>
        rw [if_pos ⟨wraps, first⟩]
        refine ⟨kept, .inr ⟨rfl, Finset.eq_empty_of_forall_notMem fun c member => ?_⟩⟩
        obtain ⟨inside, free⟩ := mem_free.1 member
        have range := inside
        exact seen c inside (Nat.lt_of_lt_of_le first range.1) (by have := range.2; omega) free
      case neg =>
        rw [if_neg fun both => first both.2, if_pos wraps]
        refine search_step clean wf kept proper ⟨by omega, by omega⟩ fun s₂ kept' used => ?_
        have seen' : ∀ c, g.links.Inside c → c ≤ 2 ∨ scl < c → s.fat g c ≠ 0 := by
          intro c inside place
          have range := inside
          by_cases same : c = 2
          · rwa [same]
          · exact seen c inside (by have := range.1; omega) (by have := range.2; omega)
        split
        case isTrue last =>
          refine ⟨kept', .inr ⟨rfl, Finset.eq_empty_of_forall_notMem fun c member => ?_⟩⟩
          exact seen' c (mem_free.1 member).1 (by omega) (mem_free.1 member).2
        case isFalse more =>
          exact searchLoop_wrapped clean wf proper (by omega) fuel kept' (Nat.le_refl 2) (by omega)
            (by omega) seen'

/-- `ncl` has been taken and linked behind `clst`, if that is a cluster. -/
structure Grown (g : Geometry) (faults : Faults) (clst ncl : Nat) (s s' : Fatfs) : Prop extends
    Changed g faults g.InFat s s' where
  inside : g.links.Inside ncl
  free : s.fat g ncl = 0
  last : g.links.Ends (s'.fat g ncl)
  linked : clst ≠ 0 → s'.fat g clst = ncl
  others : ∀ c, c ≠ ncl → c ≠ clst → s'.fat g c = s.fat g c
  counted : s.Counted g → s'.Counted g
  lastClust : s'.lastClust = ncl

omit clean in
/-- The mark of the last cluster of a chain. -/
theorem mark_ends (wf : g.Wf) : g.nFatent ≤ 0x0FFFFFFF % g.fsType.packing.size := by
  have below := wf.nFatent
  have mark : 0x0FFFFFFF % g.fsType.packing.size = g.fsType.packing.size - 1 := by
    cases g.fsType <;> decide
  omega

omit clean in
/-- The cluster that has been taken and linked is counted. -/
theorem countTaken_spec (wf : g.Wf) {clst ncl : Nat} {s₀ : Fatfs} (inside : g.links.Inside ncl)
    (free : s₀.fat g ncl = 0) (used : clst ≠ 0 → s₀.fat g clst ≠ 0)
    (changed : Changed g faults g.InFat s₀ s) (freeClust : s.freeClust = s₀.freeClust)
    (mark : g.links.Ends (s.fat g ncl)) (linked : clst ≠ 0 → s.fat g clst = ncl)
    (others : ∀ c, c ≠ ncl → c ≠ clst → s.fat g c = s₀.fat g c) :
    After (countTaken ncl) (fun _ s' => Grown g faults clst ncl s₀ s') (fun _ _ => False) s := by
  have range := inside
  have n_pos : 0 < g.nFatent := Nat.lt_of_le_of_lt (Nat.zero_le _) range.2
  have ncl_pos : 0 < ncl := Nat.lt_of_lt_of_le (by decide) range.1
  have fewer : (g.free (s.fat g)).card + 1 = (g.free (s₀.fat g)).card := by
    rw [← free_update_some inside free (Nat.ne_of_gt (Nat.lt_of_lt_of_le n_pos mark))]
    congr 2
    ext c
    rw [mem_free, mem_free]
    by_cases new : c = ncl
    · subst new
      rw [Function.update_self]
    · rw [Function.update_of_ne new]
      by_cases old : c = clst
      · subst old
        by_cases none : c = 0
        · subst none
          exact ⟨fun both => absurd both.1.1 (by decide), fun both => absurd both.1.1 (by decide)⟩
        · rw [linked none]
          exact ⟨fun both => absurd both.2 (Nat.ne_of_gt ncl_pos),
            fun both => absurd both.2 (used none)⟩
      · rw [others c new old]
  have limit := wf.nFatent_lt
  have bound := free_card_lt (g := g) (s₀.fat g)
    (Nat.le_of_lt (Nat.lt_of_le_of_lt range.1 range.2))
  unfold countTaken
  rw [after_modify]
  split
  case isFalse unknown =>
    rw [not_not] at unknown
    exact ⟨changed.trans (changed_counts changed.coherent _ _ _), inside, free, mark, linked,
      others,
      fun _ => .inl unknown, rfl⟩
  case isTrue known =>
    refine ⟨changed.trans (changed_counts changed.coherent _ _ _), inside, free, mark, linked,
      others,
      fun counted => .inr ?_, rfl⟩
    have exact_count := counted.resolve_left (freeClust ▸ known)
    change (s.freeClust + 4294967295) % 4294967296 = (g.free (s.fat g)).card
    omega

/-- A cluster is looked for, taken and linked. -/
theorem allocate_spec (wf : g.Wf) (coherent : s.Coherent g)
    (proper : ∀ c, g.links.Inside c → s.fat g c ≠ 1) {clst scl : Nat} (scl_pos : 1 ≤ scl)
    (scl_lt : scl < g.nFatent)
    (ends : clst ≠ 0 → g.links.Inside clst ∧ g.links.Ends (s.fat g clst)) :
    After (allocate g faults clst scl) (fun r s' =>
      Grown g faults clst r s s' ∨ r = 0 ∧ Kept g faults s s' ∧ g.free (s.fat g) = ∅)
      (fun _ _ => False) s := by
  have limit := wf.nFatent_lt
  unfold allocate
  rw [after_bind]
  refine (searchLoop_spec clean wf proper scl_pos g.nFatent (.refl coherent)
    (Nat.le_refl scl) scl_lt
    (by omega) fun c _ above below => absurd above (Nat.not_lt.2 below)).mono (fun r s₁ => ?_)
    fun _ _ => id
  rintro ⟨kept, ⟨ncl, rfl, inside, free⟩ | ⟨rfl, none⟩⟩
  case inr => exact .inr ⟨rfl, kept, none⟩
  case inl =>
    have range := inside
    have used : clst ≠ 0 → s.fat g clst ≠ 0 := fun some zero => by
      have mark : g.nFatent ≤ s.fat g clst := (ends some).2
      omega
    simp only [after_tryCatch, after_bind]
    refine (putFat_clean clean wf kept.coherent inside).mono (fun _ s₂ => ?_)
      fun _ _ => False.elim
    intro marked
    have mark : g.links.Ends (s₂.fat g ncl) := by
      rw [marked.fat_same]
      exact mark_ends wf
    have freeClust : s₂.freeClust = s.freeClust :=
      (congrArg (fun c => c.2.2) marked.counts).trans kept.freeClust
    by_cases none : clst = 0
    case pos =>
      rw [if_neg (not_not.2 none), after_bind]
      refine (countTaken_spec wf inside free used (kept.changed.trans marked.toChanged)
        freeClust mark
        (fun some => absurd none some) fun c other _ => ?_).mono (fun _ s₃ => .inl) fun _ _ =>
          False.elim
      rw [marked.fat_other other, kept.fat wf]
    case neg =>
      have apart : clst ≠ ncl := fun same => used none (same ▸ free)
      rw [if_pos none, after_bind]
      refine (putFat_clean clean wf marked.coherent (ends none).1).mono (fun _ s₃ => ?_)
        fun _ _ => False.elim
      intro entered
      rw [after_bind]
      refine (countTaken_spec wf inside free used
        ((kept.changed.trans marked.toChanged).trans entered.toChanged)
        ((congrArg (fun c => c.2.2) entered.counts).trans freeClust)
        (by rwa [entered.fat_other (Ne.symm apart)]) (fun _ => ?_) fun c other other' => ?_).mono
        (fun _ s₄ => .inl) fun _ _ => False.elim
      · rw [entered.fat_same, Nat.mod_eq_of_lt (Nat.lt_trans range.2 wf.nFatent)]
      · rw [entered.fat_other other', marked.fat_other other, kept.fat wf]

/-- `create_chain` for a cluster that is followed by another one. -/
theorem createChain_follows (wf : g.Wf) (coherent : s.Coherent g) {clst : Nat}
    (inside : g.links.Inside clst) (next : g.links.Inside (s.fat g clst)) :
    After (createChain g faults clst) (fun r s' => r = s.fat g clst ∧ Kept g faults s s')
      (fun _ _ => False) s := by
  have range := inside
  have range' := next
  unfold createChain
  rw [if_neg (Nat.ne_of_gt (Nat.lt_of_lt_of_le (by decide) range.1)), after_bind]
  refine (getFat_clean clean wf coherent inside).mono (fun cs s₁ => ?_) fun _ _ => id
  rintro ⟨rfl, kept⟩
  rw [if_neg (Nat.not_lt.2 range'.1), if_pos range'.2]
  exact ⟨rfl, kept⟩

/-- `create_chain` for the last cluster of a chain, or for no cluster: it fails only if there is
none that is free. -/
theorem createChain_grows (wf : g.Wf) (coherent : s.Coherent g) (two_le : 2 ≤ g.nFatent)
    (proper : ∀ c, g.links.Inside c → s.fat g c ≠ 1) {clst : Nat}
    (ends : clst ≠ 0 → g.links.Inside clst ∧ g.links.Ends (s.fat g clst)) :
    After (createChain g faults clst) (fun r s' =>
      Grown g faults clst r s s' ∨ r = 0 ∧ Kept g faults s s' ∧ g.free (s.fat g) = ∅)
      (fun _ _ => False) s := by
  unfold createChain
  by_cases none : clst = 0
  case pos =>
    rw [if_pos none, after_bind, after_get]
    split
    case isTrue => exact allocate_spec clean wf coherent proper (Nat.le_refl 1) (by omega) ends
    case isFalse known =>
      rw [not_or, Nat.not_le] at known
      exact allocate_spec clean wf coherent proper (by omega) known.2 ends
  case neg =>
    obtain ⟨inside, mark⟩ := ends none
    have range := inside
    have mark' : g.nFatent ≤ s.fat g clst := mark
    rw [if_neg none, after_bind]
    refine (getFat_clean clean wf coherent inside).mono (fun cs s₁ => ?_) fun _ _ => id
    rintro ⟨rfl, kept⟩
    rw [if_neg (by omega), if_neg (Nat.not_lt.2 mark')]
    have same := kept.fat wf
    refine (allocate_spec clean wf kept.coherent (by rwa [same])
      (Nat.le_trans (by decide) range.1) range.2 fun _ => by rw [same]; exact ends none).mono
      (fun r s₂ => ?_) fun _ _ => id
    rintro (grown | ⟨rfl, kept', none⟩)
    · refine .inl ⟨kept.changed.trans grown.toChanged, grown.inside, same ▸ grown.free, grown.last,
        grown.linked, fun c other other' => ?_, fun counted => grown.counted ?_, grown.lastClust⟩
      · rw [grown.others c other other', same]
      · exact (kept.counted wf).2 counted
    · exact .inr ⟨rfl, kept.trans kept', same ▸ none⟩

end Clean

end D2xCios.FatFs
