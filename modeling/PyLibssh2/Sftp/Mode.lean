import PyLibssh2.Sftp.Copy

/-!
# Modes of `open_file`

`get_flags` looks for the letter of every row of a table in the mode and collects the flags of the rows
it finds.

* `contains_getFlags`  a flag is passed exactly if the mode has the letter of a row with this flag;
* `fopen_iff`          the flags are those of `fopen` exactly if the mode has no `a`, or a `w` or an `x`
  with it: the row of `a` has one flag where the rows of `w` and `x` have three and four.
-/

namespace PyLibssh2.Remote

inductive Flag
  | read | write | append | creat | trunc | excl
  deriving DecidableEq

/-- `LIBSSH2_FXF_READ`, … -/
def Flag.bit : Flag → Nat
  | .read => FXF_READ
  | .write => FXF_WRITE
  | .append => FXF_APPEND
  | .creat => FXF_CREAT
  | .trunc => FXF_TRUNC
  | .excl => FXF_EXCL

def Contains (flags : Nat) (flag : Flag) : Prop := flags &&& flag.bit ≠ 0

/-- the letters that stand for a flag in a mode of `fopen` -/
def Flag.fopen : Flag → List Char
  | .read => ['r', '+']
  | .write => ['w', 'a', 'x', '+']
  | .append => ['a']
  | .creat => ['w', 'a', 'x']
  | .trunc => ['w', 'x']
  | .excl => ['x']

/-- libssh2 gets the flags that the mode has in `fopen` -/
def FollowsFopen (mode : List Char) : Prop :=
  ∀ flag : Flag, Contains (getFlags mode) flag ↔ ∃ c ∈ flag.fopen, c ∈ mode

/-- the letters of the rows of the table that have a flag -/
def Flag.letters (flag : Flag) : List Char :=
  (modeflags.filter fun m => m.2 &&& flag.bit ≠ 0).map Prod.fst

variable {mode : List Char} {flag : Flag}

/-! ## the scan of the table -/

theorem or_and_eq_zero (f g m : Nat) : (f ||| g) &&& m = 0 ↔ f &&& m = 0 ∧ g &&& m = 0 := by
  rw [Nat.and_or_distrib_right, Nat.or_eq_zero_iff]

/-- the bits of `m` are set by the rows that are found, and by no other -/
theorem scan_eq_zero (table : List (Char × Nat)) (f m : Nat) :
    table.foldl (fun f e => if e.1 ∈ mode then f ||| e.2 else f) f &&& m = 0 ↔
      f &&& m = 0 ∧ ∀ e ∈ table, e.1 ∈ mode → e.2 &&& m = 0 := by
  induction table generalizing f with
  | nil => simp
  | cons row table ih =>
    rw [List.foldl_cons, ih, List.forall_mem_cons]
    by_cases h : row.1 ∈ mode
    · rw [if_pos h, or_and_eq_zero, and_assoc]
      exact and_congr_right fun _ => and_congr_left fun _ => ⟨fun h1 _ => h1, fun h1 => h1 h⟩
    · rw [if_neg h]
      exact and_congr_right fun _ => ⟨fun h1 => ⟨fun h2 => absurd h2 h, h1⟩, And.right⟩

theorem contains_getFlags : Contains (getFlags mode) flag ↔ ∃ c ∈ flag.letters, c ∈ mode := by
  unfold Contains getFlags
  rw [Ne, scan_eq_zero, Nat.zero_and]
  constructor
  · intro h
    by_contra hno
    refine h ⟨rfl, fun row hrow hc => ?_⟩
    by_contra hbit
    refine hno ⟨row.1, List.mem_map_of_mem (List.mem_filter.mpr ⟨hrow, ?_⟩), hc⟩
    exact decide_eq_true hbit
  · intro h h0
    obtain ⟨c, hc, hmode⟩ := h
    obtain ⟨row, hrow, rfl⟩ := List.mem_map.mp hc
    obtain ⟨htable, hbit⟩ := List.mem_filter.mp hrow
    exact of_decide_eq_true hbit (h0.2 row htable hmode)

/-! ## the letters -/

theorem letters_write : Flag.write.letters = ['w', '+', 'x'] := rfl

theorem letters_creat : Flag.creat.letters = ['w', 'x'] := rfl

/-- the table lacks one letter of two flags -/
theorem mem_fopen (c : Char) : c ∈ flag.fopen ↔
    c ∈ flag.letters ∨ c = 'a' ∧ (flag = .write ∨ flag = .creat) := by
  cases flag with
  | read => simp [Flag.fopen, show Flag.read.letters = ['r', '+'] from rfl]
  | write => simp [Flag.fopen, letters_write, or_comm, or_left_comm]
  | append => simp [Flag.fopen, show Flag.append.letters = ['a'] from rfl]
  | creat => simp [Flag.fopen, letters_creat, or_comm, or_left_comm]
  | trunc => simp [Flag.fopen, show Flag.trunc.letters = ['w', 'x'] from rfl]
  | excl => simp [Flag.fopen, show Flag.excl.letters = ['x'] from rfl]

theorem wx_mem_letters (hflag : flag = .write ∨ flag = .creat) :
    'w' ∈ flag.letters ∧ 'x' ∈ flag.letters := by
  rcases hflag with rfl | rfl
  · simp [letters_write]
  · simp [letters_creat]

/-- **Open modes.**  For every mode: libssh2 gets the flags that the mode has in `fopen`, exactly if there
is no `a` in the mode or a `w` or an `x` besides. -/
theorem fopen_iff (mode : List Char) : FollowsFopen mode ↔ ('a' ∈ mode → 'w' ∈ mode ∨ 'x' ∈ mode) := by
  constructor
  · intro h ha
    have hcreat : Contains (getFlags mode) .creat := (h .creat).mpr ⟨'a', by simp [Flag.fopen], ha⟩
    obtain ⟨c, hc, hmode⟩ := contains_getFlags.mp hcreat
    have hwx : c = 'w' ∨ c = 'x' := by simpa [letters_creat] using hc
    rcases hwx with rfl | rfl
    · exact Or.inl hmode
    · exact Or.inr hmode
  · intro h flag
    rw [contains_getFlags]
    constructor
    · intro hex
      obtain ⟨c, hc, hmode⟩ := hex
      exact ⟨c, (mem_fopen c).mpr (Or.inl hc), hmode⟩
    · intro hex
      obtain ⟨c, hc, hmode⟩ := hex
      rcases (mem_fopen c).mp hc with hin | ⟨rfl, hflag⟩
      · exact ⟨c, hin, hmode⟩
      · obtain ⟨hw, hx⟩ := wx_mem_letters hflag
        rcases h hmode with h1 | h1
        · exact ⟨'w', hw, h1⟩
        · exact ⟨'x', hx, h1⟩

/-- a file opened with `a` cannot be written and is not created -/
theorem append_unwritable : ¬ ∀ mode, FollowsFopen mode := by
  intro h
  have hwrite : Contains (getFlags ['a']) .write :=
    (h ['a'] .write).mpr ⟨'a', by simp [Flag.fopen], List.mem_singleton_self _⟩
  exact hwrite rfl

end PyLibssh2.Remote
