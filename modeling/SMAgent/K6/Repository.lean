import SMAgent.Base.GoString

/-!
# The repository of k6 binaries

`internal/k6runner/version/repository.go`: `Resolve` and `Entries` over a cached list of
binaries, filled by the first `scan`. The folder does not change; what may differ from call
to call is whether the folder can be read and how each execution of a binary ends. The mutex
is held during `scan`, and the list is only written there, so calls are taken one by one.
-/

namespace SMAgent.K6
open SMAgent.Base

/-- What the code takes from `semver`, `slices` and `filepath`: `Compare` is a total
preorder, and `SortFunc` returns a sorted permutation, in no particular order among equals. -/
structure Lib (V C : Type) where
  newVersion : GoString → Option V
  newConstraint : GoString → Option C
  compare : V → V → Ordering
  check : C → V → Bool
  join : GoString → GoString → GoString
  sortFunc : {α : Type} → (α → α → Ordering) → List α → List α
  transCmp : Std.TransCmp compare
  sortFunc_perm : ∀ {α : Type} (cmp : α → α → Ordering) (l : List α), (sortFunc cmp l).Perm l
  sortFunc_sorted : ∀ {α : Type} (cmp : α → α → Ordering) (l : List α), Std.TransCmp cmp →
    (sortFunc cmp l).Pairwise fun a b ↦ cmp a b ≠ .gt

/-- A file of the repository's folder, with the mode that `Info` reports. -/
structure DirEntry where
  name : GoString
  isDir : Bool := false
  mode : UInt32 := 0o755
  deriving DecidableEq, Repr

/-- The fields of `Repository` that are set when it is made, with the files of the folder and
the version of each binary. -/
structure Repository (V : Type) where
  root : GoString
  override : GoString := []
  files : List DirEntry
  version : GoString → V

/-- `Entry`. -/
structure Entry (V : Type) where
  path : GoString
  version : V
  deriving DecidableEq, Repr

/-- What happens during one call: whether `fs.ReadDir` and `Info` of a file succeed, and the
version that `runK6Version` reads from a binary's output, `none` if it fails. A version that
parses is the binary's own. -/
structure Attempt {V C : Type} (lib : Lib V C) (repo : Repository V) where
  readDir : Bool := true
  info : GoString → Bool := fun _ ↦ true
  runK6Version : GoString → Option GoString
  fixed : ∀ bin text v, runK6Version bin = some text → lib.newVersion text = some v →
    v = repo.version bin

/-- Why `scan` failed. -/
inductive ScanError where
  | readingRoot
  | readingFileInfo
  | findingVersion (bin : GoString)
  | invalidVersion (text bin : GoString)
  deriving DecidableEq, Repr

/-- Why `Resolve` failed. -/
inductive ResolveError where
  | scanning (err : ScanError)
  | invalidConstraint (constraintStr : GoString)
  /-- `ErrUnsatisfiable` -/
  | unsatisfiable
  deriving DecidableEq, Repr

section
variable {V C : Type} (lib : Lib V C) (repo : Repository V)

/-- `binaryMustContain`. -/
def binaryMustContain : GoString := .lit "k6"

/-- The filters of `binaries` on one file, `repository.go:237-260`. -/
def DirEntry.isBinary (file : DirEntry) : Bool :=
  !file.isDir && (file.mode &&& 0o111 != 0) && file.name.contains binaryMustContain

/-- The loop of `binaries`, `repository.go:234-263`: only files are asked for their `Info`. -/
def binariesOf (info : GoString → Bool) : List DirEntry → Except ScanError (List GoString)
  | [] => .ok []
  | file :: files =>
    if !file.isDir && !info file.name then .error .readingFileInfo
    else do
      let rest ← binariesOf info files
      return if file.isBinary then lib.join repo.root file.name :: rest else rest

/-- `Repository.binaries`, `repository.go:219-264`. -/
def binaries (a : Attempt lib repo) : Except ScanError (List GoString) :=
  if repo.override ≠ [] then .ok [repo.override]
  else if !a.readDir then .error .readingRoot
  else binariesOf lib repo a.info repo.files

/-- The loop of `scan`, `repository.go:182-197`: the entries with those appended before the
first failure, if any. -/
def appendVersions (a : Attempt lib repo) :
    List GoString → List (Entry V) → List (Entry V) × Option ScanError
  | [], entries => (entries, none)
  | bin :: bins, entries =>
    match a.runK6Version bin with
    | none => (entries, some (.findingVersion bin))
    | some text =>
      match lib.newVersion text with
      | none => (entries, some (.invalidVersion text bin))
      | some version => appendVersions a bins (entries ++ [⟨bin, version⟩])

/-- The order of `slices.SortFunc` in `scan`: highest version first. -/
def newestFirst (a b : Entry V) : Ordering := lib.compare b.version a.version

/-- `Repository.scan`, `repository.go:165-208`. -/
def scan (a : Attempt lib repo) (force : Bool) (entries : List (Entry V)) :
    List (Entry V) × Option ScanError :=
  if 0 < entries.length ∧ !force then (entries, none)
  else
    match binaries lib repo a with
    | .error err => (entries, some err)
    | .ok bins =>
      match appendVersions lib repo a bins entries with
      | (entries, some err) => (entries, some err)
      | (entries, none) => (lib.sortFunc (newestFirst lib) entries, none)

/-- `Repository.Resolve`, `repository.go:110-139`. -/
def resolve (a : Attempt lib repo) (constraintStr : GoString) (entries : List (Entry V)) :
    List (Entry V) × Except ResolveError (Entry V) :=
  match scan lib repo a false entries with
  | (entries, some err) => (entries, .error (.scanning err))
  | (entries, none) =>
    (entries,
      match lib.newConstraint constraintStr with
      | none => .error (.invalidConstraint constraintStr)
      | some constraint =>
        match entries.find? fun entry ↦ lib.check constraint entry.version with
        | some entry => .ok entry
        | none => .error .unsatisfiable)

/-- `Repository.Entries`, `repository.go:143-160`. -/
def listEntries (a : Attempt lib repo) (entries : List (Entry V)) :
    List (Entry V) × Except ScanError (List (Entry V)) :=
  match scan lib repo a false entries with
  | (entries, some err) => (entries, .error err)
  | (entries, none) => (entries, .ok entries)

/-! ### The whole repository -/

/-- Every binary of the repository with its version, whatever a call finds of it. -/
def allBinaries : List (Entry V) :=
  (if repo.override ≠ [] then [repo.override]
    else (repo.files.filter DirEntry.isBinary).map fun file ↦ lib.join repo.root file.name).map
    fun bin ↦ ⟨bin, repo.version bin⟩

variable {lib repo}

/-- An execution of a binary gives a version. -/
def Attempt.Succeeds (a : Attempt lib repo) (bin : GoString) : Prop :=
  ∃ text v, a.runK6Version bin = some text ∧ lib.newVersion text = some v

private theorem binariesOf_eq_ok {info : GoString → Bool} {files : List DirEntry}
    {bins : List GoString} (h : binariesOf lib repo info files = .ok bins) :
    bins = (files.filter DirEntry.isBinary).map fun file ↦ lib.join repo.root file.name := by
  induction files generalizing bins with
  | nil => exact (Except.ok.inj h).symm
  | cons file files ih =>
    rw [binariesOf] at h
    split at h
    · cases h
    · cases hr : binariesOf lib repo info files with
      | error err =>
        rw [hr] at h
        cases h
      | ok rest =>
        rw [hr] at h
        obtain rfl := Except.ok.inj h
        rw [ih hr, List.filter_cons]
        cases file.isBinary <;> rfl

/-- A call that finds the binaries finds those of the repository. -/
theorem allBinaries_of_binaries {a : Attempt lib repo} {bins : List GoString}
    (h : binaries lib repo a = .ok bins) :
    allBinaries lib repo = bins.map fun bin ↦ ⟨bin, repo.version bin⟩ := by
  unfold binaries at h
  unfold allBinaries
  split at h
  next ho =>
    rw [if_pos ho, Except.ok.inj h]
  next ho =>
    rw [if_neg ho]
    split at h
    · cases h
    · rw [binariesOf_eq_ok h]

/-- One round of the loop appends the binary with its version, or fails. -/
theorem appendVersions_cons (a : Attempt lib repo) (bin : GoString) (bins : List GoString)
    (entries : List (Entry V)) :
    (a.Succeeds bin ∧ appendVersions lib repo a (bin :: bins) entries =
      appendVersions lib repo a bins (entries ++ [⟨bin, repo.version bin⟩])) ∨
    (¬ a.Succeeds bin ∧ ∃ err, appendVersions lib repo a (bin :: bins) entries =
      (entries, some err)) := by
  rw [appendVersions]
  cases hr : a.runK6Version bin with
  | none =>
    refine .inr ⟨?_, _, rfl⟩
    rintro ⟨text, v, h, -⟩
    cases hr.symm.trans h
  | some text =>
    cases hv : lib.newVersion text with
    | none =>
      refine .inr ⟨?_, .invalidVersion text bin, by simp only [hv]⟩
      rintro ⟨text', v, h, h'⟩
      obtain rfl := Option.some.inj (hr.symm.trans h)
      cases hv.symm.trans h'
    | some v =>
      obtain rfl := a.fixed bin text v hr hv
      exact .inl ⟨⟨text, _, hr, hv⟩, by simp only [hv]⟩

/-- If every execution succeeds, every binary is appended. -/
theorem appendVersions_of_forall (a : Attempt lib repo) (bins : List GoString)
    (h : ∀ bin ∈ bins, a.Succeeds bin) (entries : List (Entry V)) :
    appendVersions lib repo a bins entries =
      (entries ++ bins.map fun bin ↦ ⟨bin, repo.version bin⟩, none) := by
  induction bins generalizing entries with
  | nil => rw [appendVersions, List.map_nil, List.append_nil]
  | cons bin bins ih =>
    obtain ⟨-, heq⟩ | ⟨hf, -⟩ := appendVersions_cons a bin bins entries
    · rw [heq, ih (List.forall_mem_cons.mp h).2, List.map_cons, List.append_assoc]
      rfl
    · exact absurd (h bin List.mem_cons_self) hf

/-- If some execution fails, the loop fails with fewer entries appended than there are
binaries. -/
theorem appendVersions_of_exists (a : Attempt lib repo) (bins : List GoString)
    (h : ∃ bin ∈ bins, ¬ a.Succeeds bin) (entries : List (Entry V)) :
    ∃ more err, appendVersions lib repo a bins entries = (entries ++ more, some err) ∧
      more.length < bins.length := by
  induction bins generalizing entries with
  | nil =>
    obtain ⟨_, hb, -⟩ := h
    cases hb
  | cons bin bins ih =>
    obtain ⟨hs, heq⟩ | ⟨-, err, heq⟩ := appendVersions_cons a bin bins entries
    · have hrest : ∃ b ∈ bins, ¬ a.Succeeds b := by
        obtain ⟨b, hb, hf⟩ := h
        rcases List.mem_cons.mp hb with rfl | hb
        · exact absurd hs hf
        · exact ⟨b, hb, hf⟩
      obtain ⟨more, err, hm, hlen⟩ := ih hrest (entries ++ [⟨bin, repo.version bin⟩])
      refine ⟨⟨bin, repo.version bin⟩ :: more, err, ?_, Nat.succ_lt_succ hlen⟩
      rw [heq, hm, List.append_assoc]
      rfl
    · exact ⟨[], err, by rw [heq, List.append_nil], Nat.succ_pos _⟩

/-- The order by version, newest first, is transitive. -/
theorem transCmp_newestFirst : Std.TransCmp (newestFirst lib) := by
  have htrans := lib.transCmp
  exact
    { eq_swap := fun {a b} ↦ Std.OrientedCmp.eq_swap (a := b.version) (b := a.version)
      isLE_trans := fun {a b c} (hab : (lib.compare b.version a.version).isLE)
        (hbc : (lib.compare c.version b.version).isLE) ↦ htrans.isLE_trans hbc hab }

end
end SMAgent.K6
