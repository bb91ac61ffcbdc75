import MessageHarvest.Files.Discovery
import MessageHarvest.Files.Disk

/-! # Looking at files

    Most of what is done with files only looks at them. On a disk such a
    computation is `Quiet`: it answers and leaves the disk as it is. Quiet
    computations are closed under everything that programs are made of, so a
    program that uses no step that changes files is quiet. -/

namespace MessageHarvest

/-! ## Running programs on a disk -/

/-- The outcome of a program on a disk, and the disk afterwards. -/
abbrev Disk.run {ε α : Type} (x : ExceptT ε (StateM Disk) α) (d : Disk) : Except ε α × Disk :=
  x.run.run d

section Run

variable {ε ε' α β : Type} {d d' : Disk}

/-- A computation goes on from what its first step answers and leaves behind. -/
theorem run_bind_of_run {σ : Type} {s s' : σ} {x : StateM σ α} {f : α → StateM σ β} {a : α}
    (h : x.run s = (a, s')) : (x >>= f).run s = (f a).run s' := by
  rw [StateT.run_bind, h]
  rfl

/-- A program ends with the failure of its first step, or goes on behind it. -/
theorem Disk.run_bind_cases {x : ExceptT ε (StateM Disk) α} {f : α → ExceptT ε (StateM Disk) β}
    {r : Except ε β} (h : Disk.run (x >>= f) d = (r, d')) :
    (∃ e, Disk.run x d = (.error e, d') ∧ r = .error e) ∨
      ∃ a d₁, Disk.run x d = (.ok a, d₁) ∧ Disk.run (f a) d₁ = (r, d') := by
  cases hx : Disk.run x d with
  | mk w d₁ =>
    rw [Disk.run, ExceptT.run_bind, run_bind_of_run hx] at h
    cases w with
    | error e =>
      cases h
      exact .inl ⟨e, rfl, rfl⟩
    | ok a => exact .inr ⟨a, d₁, rfl, h⟩

/-- A first step that does not look at the disk. -/
theorem Disk.run_except_cases {w : Except ε α} {f : α → ExceptT ε (StateM Disk) β}
    {r : Except ε β} (h : Disk.run ((liftM w : ExceptT ε (StateM Disk) α) >>= f) d = (r, d')) :
    (∃ e, w = .error e ∧ r = .error e ∧ d' = d) ∨
      ∃ a, w = .ok a ∧ Disk.run (f a) d = (r, d') := by
  cases w with
  | error e =>
    cases h
    exact .inl ⟨e, rfl, rfl, rfl⟩
  | ok a => exact .inr ⟨a, rfl, h⟩

theorem Disk.run_adapt_cases {x : ExceptT ε (StateM Disk) α} {f : ε → ε'} {r : Except ε' α}
    (h : Disk.run (x.adapt f) d = (r, d')) :
    ∃ w, Disk.run x d = (w, d') ∧ r = w.mapError f := by
  cases h
  exact ⟨_, rfl, rfl⟩

theorem Disk.run_attempt_cases {x : StateM Disk (Except IoError α)} {f : IoError → ε}
    {r : Except ε α} (h : Disk.run (FileSystem.attempt f x) d = (r, d')) :
    ∃ w, x.run d = (w, d') ∧ r = w.mapError f := by
  cases h
  exact ⟨_, rfl, rfl⟩

end Run

/-! ## Quiet computations -/

/-- A computation that leaves every disk as it is. -/
def Quiet {α : Type} (x : StateM Disk α) : Prop := ∀ d, ∃ a, x d = (a, d)

namespace Quiet

variable {ε ε' α β : Type}

/-! ## Composition -/

theorem pure (a : α) : Quiet (Pure.pure a) := fun _ => ⟨a, rfl⟩

theorem bind {x : StateM Disk α} {f : α → StateM Disk β} (hx : Quiet x) (hf : ∀ a, Quiet (f a)) :
    Quiet (x >>= f) := by
  intro d
  obtain ⟨a, ha⟩ := hx d
  obtain ⟨b, hb⟩ := hf a d
  refine ⟨b, ?_⟩
  show f (x d).1 (x d).2 = (b, d)
  rw [ha]
  exact hb

theorem mapM {f : α → StateM Disk β} (hf : ∀ a, Quiet (f a)) (as : List α) :
    Quiet (as.mapM f) := by
  induction as with
  | nil => exact pure []
  | cons a as ih =>
    rw [List.mapM_cons]
    exact (hf a).bind fun b => ih.bind fun bs => pure (b :: bs)

theorem filterAuxM {f : α → StateM Disk Bool} (hf : ∀ a, Quiet (f a)) (as acc : List α) :
    Quiet (List.filterAuxM f as acc) := by
  induction as generalizing acc with
  | nil => exact pure acc
  | cons a as ih => exact (hf a).bind fun b => ih _

theorem filterM {f : α → StateM Disk Bool} (hf : ∀ a, Quiet (f a)) (as : List α) :
    Quiet (as.filterM f) :=
  (filterAuxM hf as []).bind fun bs => pure bs.reverse

/-! ## Computations that can fail -/

theorem bindE {x : ExceptT ε (StateM Disk) α} {f : α → ExceptT ε (StateM Disk) β}
    (hx : Quiet x.run) (hf : ∀ a, Quiet (f a).run) : Quiet (x >>= f).run := by
  rw [ExceptT.run_bind]
  refine hx.bind fun r => ?_
  cases r with
  | ok a => exact hf a
  | error e => exact pure _

theorem mapME {f : α → ExceptT ε (StateM Disk) β} (hf : ∀ a, Quiet (f a).run) (as : List α) :
    Quiet (as.mapM f).run := by
  induction as with
  | nil => exact pure _
  | cons a as ih =>
    rw [List.mapM_cons]
    exact (hf a).bindE fun b => ih.bindE fun bs => pure _

theorem lift {x : StateM Disk α} (hx : Quiet x) :
    Quiet (liftM x : ExceptT ε (StateM Disk) α).run :=
  bind hx fun a => (pure (Except.ok a) : Quiet (Pure.pure (Except.ok (ε := ε) a)))

theorem adapt {x : ExceptT ε (StateM Disk) α} (hx : Quiet x.run) (f : ε → ε') :
    Quiet (ExceptT.adapt f x).run :=
  hx.bind fun r => pure (r.mapError f)

theorem attempt {x : StateM Disk (Except IoError α)} (hx : Quiet x) (cause : IoError → ε) :
    Quiet (FileSystem.attempt cause x).run :=
  hx.bind fun r => pure (r.mapError cause)

/-! ## Looking at one path -/

theorem kind? (p : Path) : Quiet (FileSystem.kind? p) := fun _ => ⟨_, rfl⟩

theorem canonical? (p : Path) : Quiet (FileSystem.canonical? p) := fun _ => ⟨_, rfl⟩

theorem read (p : Path) : Quiet (FileSystem.read p) := fun _ => ⟨_, rfl⟩

theorem get : Quiet (MonadState.get : StateM Disk Disk) := fun d => ⟨d, rfl⟩

theorem children (p : Path) : Quiet (FileSystem.children p) := by
  refine get.bind fun d => ?_
  cases d.find? p with
  | none => exact pure []
  | some f =>
    obtain ⟨place, c⟩ := f
    cases c with
    | directory => exact get.bind fun d => pure _
    | file bytes => exact pure []

theorem walk (p : Path) : Quiet (FileSystem.walk p) := by
  refine get.bind fun d => ?_
  cases d.find? p with
  | none => exact pure _
  | some f =>
    obtain ⟨place, c⟩ := f
    cases c with
    | directory => exact get.bind fun d => pure _
    | file bytes => exact pure _

theorem isThere (p : Path) : Quiet (FileSystem.isThere p) := (kind? p).bind fun _ => pure _

theorem isDirectory (p : Path) : Quiet (FileSystem.isDirectory p) := (kind? p).bind fun _ => pure _

theorem readText (p : Path) : Quiet (FileSystem.readText p) := by
  refine (read p).bind fun r => ?_
  cases r with
  | error e => exact pure _
  | ok bytes =>
    dsimp only
    cases Text.ofUtf8? bytes <;> exact pure _

/-! ## Discovery -/

theorem next (p : Path) (l : Wildcard.Leg) : Quiet (l.next p) := by
  cases l with
  | name n =>
    rw [Wildcard.Leg.next]
    split
    · exact (isDirectory p).bind fun b => pure _
    · exact (isThere _).bind fun b => pure _
  | search w =>
    refine (isDirectory p).bind fun b => ?_
    split
    · exact pure []
    · exact (children p).bind fun ns => pure _
  | deep last? =>
    refine (isDirectory p).bind fun b => ?_
    split
    · exact pure []
    · exact (walk p).bind fun w => pure _

theorem expand (ls : List Wildcard.Leg) (p : Path) : Quiet (Wildcard.expand ls p) := by
  induction ls generalizing p with
  | nil => exact pure _
  | cons l ls ih =>
    rw [Wildcard.expand]
    exact (next p l).bind fun ps => (mapM ih ps).bind fun pss => pure _

theorem directories (p : Path) : Quiet (Wildcard.directories p) := by
  unfold Wildcard.directories
  dsimp only
  generalize (if p.isAbsolute then _ else _ : Path × List Char) = start
  obtain ⟨start, rest⟩ := start
  dsimp only
  split
  · exact (expand _ _).bind fun ps => filterM isDirectory ps
  · exact pure []

theorem startsOf (root : Path) (e : String) : Quiet (SourceFiles.startsOf root e) := by
  unfold SourceFiles.startsOf
  dsimp only
  split
  · exact (directories _).bind fun ps => pure _
  · exact (isThere _).bind fun b => pure _

theorem starts (root : Path) (es : List String) : Quiet (SourceFiles.starts root es) := by
  induction es with
  | nil => exact pure _
  | cons e es ih =>
    refine (startsOf root e).bind fun r => ?_
    cases r with
    | error p => exact pure _
    | ok ps => exact ih.bind fun r => pure _

theorem places (root : Path) (includes : List String) :
    Quiet (SourceFiles.places root includes) := by
  unfold SourceFiles.places
  split
  · exact pure _
  · exact starts root includes

theorem walked (p : Path) : Quiet (do return (p, ← (FileSystem.walk p : StateM Disk Walk))) :=
  (walk p).bind fun _ => pure _

theorem gather (keep : Path → Bool) (ps : List Path) : Quiet (SourceFiles.gather keep ps) :=
  (mapM walked ps).bind fun _ => pure _

theorem discover (root : Path) (includes ignores : List String) :
    Quiet (SourceFiles.discover root includes ignores) := by
  refine (places root includes).bind fun r => ?_
  cases r with
  | error p => exact pure _
  | ok ps => exact (gather _ ps).bind fun _ => pure _

end Quiet

/-! ## Answers -/

/-- What a computation answers on a disk. -/
def Disk.look {α : Type} (d : Disk) (x : StateM Disk α) : α := (x.run d).1

namespace Disk

variable {α β : Type} (d : Disk)

@[simp] theorem look_pure (a : α) : d.look (pure a) = a := rfl

/-- What looks at a disk first does not change what is seen later. -/
theorem look_bind {x : StateM Disk α} (hx : Quiet x) (f : α → StateM Disk β) :
    d.look (x >>= f) = d.look (f (d.look x)) := by
  obtain ⟨a, ha⟩ := hx d
  have hrun : x.run d = (a, d) := ha
  rw [look, run_bind_of_run hrun, look, look, hrun]

theorem look_mapM {f : α → StateM Disk β} (hf : ∀ a, Quiet (f a)) (as : List α) :
    d.look (as.mapM f) = as.map fun a => d.look (f a) := by
  induction as with
  | nil => rfl
  | cons a as ih =>
    rw [List.mapM_cons, look_bind d (hf a), look_bind d (.mapM hf as), ih]
    rfl

theorem look_filterM {f : α → StateM Disk Bool} (hf : ∀ a, Quiet (f a)) (as : List α) :
    d.look (as.filterM f) = as.filter fun a => d.look (f a) := by
  -- the elements so far are kept in reverse
  have haux : ∀ as acc, d.look (List.filterAuxM f as acc) =
      (as.filter fun a => d.look (f a)).reverse ++ acc := by
    intro as
    induction as with
    | nil => intro acc; rfl
    | cons a as ih =>
      intro acc
      rw [List.filterAuxM, look_bind d (hf a), ih, List.filter_cons]
      cases d.look (f a) <;> simp
  rw [List.filterM, look_bind d (.filterAuxM hf as []), haux]
  simp

@[simp] theorem look_isThere (p : Path) : d.look (FileSystem.isThere p) = (d.find? p).isSome := by
  show ((d.find? p).map _).isSome = _
  rw [Option.isSome_map]

@[simp] theorem look_isDirectory (p : Path) :
    d.look (FileSystem.isDirectory p) = true ↔ ∃ q, d.find? p = some (q, .directory) := by
  show decide ((d.find? p).map (fun f => f.2.kind) = some .directory) = true ↔ _
  rw [decide_eq_true_iff, Option.map_eq_some_iff]
  constructor
  · rintro ⟨⟨q, c⟩, hfind, hkind⟩
    cases c with
    | directory => exact ⟨q, hfind⟩
    | file bytes => cases hkind
  · rintro ⟨q, hfind⟩
    exact ⟨_, hfind, rfl⟩

theorem look_children {p : Path} {q : Place} (h : d.find? p = some (q, .directory)) :
    d.look (FileSystem.children p) = d.childrenAt q := by
  unfold FileSystem.children instFileSystemStateM
  dsimp only
  rw [look_bind d .get, show d.look get = d from rfl, h]
  rfl

theorem look_walk {p : Path} {q : Place} {c : Content} (h : d.find? p = some (q, c)) :
    d.look (FileSystem.walk p) =
      ⟨([], c.kind) :: if c = .directory then d.below q else [], 0⟩ := by
  unfold FileSystem.walk instFileSystemStateM
  dsimp only
  rw [look_bind d .get, show d.look get = d from rfl, h]
  cases c with
  | directory => rfl
  | file bytes => rfl

end Disk

end MessageHarvest
