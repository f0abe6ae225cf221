import PyLibssh2.Ext.Use
import PyLibssh2.Sftp.Copy

/-!
# The two readers of a channel

`PYLIBSSH2_Channel_read` and `PYLIBSSH2_Channel_read_ex` make the same call of libssh2 and differ in
what they do with it: the first returns an empty string once the end of file has been seen and takes
`0` bytes for a result, the second takes `0` bytes for an error.

* `channelRead`, `channelReadEx`  the two methods, with the texts of their exceptions;
* `readers_agree_iff`             on which inputs they say the same.
-/

set_option linter.unusedSectionVars false
set_option linter.unusedVariables false

namespace PyLibssh2.Remote

/-! ## libssh2 -/

/-- what `libssh2_channel_read_ex` does: it returns the length of `data`, or `-(k + 1)` -/
inductive Received
  | data (b : List UInt8)
  | fails (k : Nat)
  deriving DecidableEq

def Received.rc : Received → Int
  | .data b => b.length
  | .fails k => -(k + 1)

def Received.bytes : Received → List UInt8
  | .data b => b
  | .fails _ => []

/-- what a channel has for a reader: the value of `libssh2_channel_eof`, the result of a read for every
stream and every size of the buffer, and the error of the session after the read -/
structure Source where
  eof : Int
  read : Int → Nat → Received
  fits : ∀ stream size, (read stream size).bytes.length ≤ size
  lastError : Int × String

/-! ## the methods -/

def errorChannelClosed : Int := -26

/-- the `switch` of `PYLIBSSH2_Channel_read` and `PYLIBSSH2_Channel_read_ex` -/
def readError (lastError : Int × String) (rc : Int) : PyExc :=
  -- a message that belongs to another error is not taken
  let errmsg := if lastError.1 ≠ rc then "" else lastError.2
  .error <|
    if rc = errorSocketSend then "Unable to send data on socket: " ++ errmsg
    else if rc = errorChannelClosed then "The channel has been closed: " ++ errmsg
    else "Unknown Error " ++ toString rc ++ ": " ++ errmsg

def channelClosedError : PyExc := .error "Channel object has been closed/shutdown."

/-- `i` of `PyArg_ParseTuple` -/
def sizeError : PyExc := .overflowError "signed integer is greater than maximum"

/-- a Python object that holds bytes -/
inductive PyBytes
  | str (b : List UInt8)
  | bytearray (b : List UInt8)
  deriving DecidableEq

def PyBytes.bytes : PyBytes → List UInt8
  | .str b => b
  | .bytearray b => b

/-- `PYLIBSSH2_Channel_read` -/
def channelRead (isOpen : Bool) (source : Source) (bufferSize : Nat) : Except PyExc PyBytes :=
  if isOpen then
    if INT_MAX < bufferSize then .error sizeError
    else if source.eof ≠ 1 then
      let r := source.read 0 bufferSize
      if 0 ≤ r.rc then .ok (.bytearray r.bytes) else .error (readError source.lastError r.rc)
    else .ok (.str [])
  else .error channelClosedError

/-- `PYLIBSSH2_Channel_read_ex`; `Py_BuildValue("iN", rc, buffer)` -/
def channelReadEx (isOpen : Bool) (source : Source) (bufferSize : Nat) (streamId : Int) :
    Except PyExc (Int × List UInt8) :=
  if isOpen then
    if INT_MAX < bufferSize then .error sizeError
    else
      let r := source.read streamId bufferSize
      if 0 < r.rc then .ok (r.rc, r.bytes) else .error (readError source.lastError r.rc)
  else .error channelClosedError

variable {source : Source} {size : Nat} {b : List UInt8} {k : Nat}

/-! ## what they return -/

theorem Received.rc_nonneg {r : Received} (h : 0 ≤ r.rc) : r = .data r.bytes ∧ r.rc = r.bytes.length := by
  cases r with
  | data b => exact ⟨rfl, rfl⟩
  | fails k =>
    have h1 : (0 : Int) ≤ -(k + 1) := h
    omega

theorem channelRead_eof (hs : ¬ INT_MAX < size) (h : source.eof = 1) :
    channelRead true source size = .ok (.str []) := by
  simp only [channelRead, if_true, if_neg hs, h, ne_eq, not_true_eq_false, if_false]

theorem channelRead_read (hs : ¬ INT_MAX < size) (h : source.eof ≠ 1) : channelRead true source size =
    if 0 ≤ (source.read 0 size).rc then .ok (.bytearray (source.read 0 size).bytes)
    else .error (readError source.lastError (source.read 0 size).rc) := by
  simp only [channelRead, if_true, if_neg hs, if_pos h]

theorem channelReadEx_eq (hs : ¬ INT_MAX < size) : channelReadEx true source size 0 =
    if 0 < (source.read 0 size).rc then .ok ((source.read 0 size).rc, (source.read 0 size).bytes)
    else .error (readError source.lastError (source.read 0 size).rc) := by
  simp only [channelReadEx, if_true, if_neg hs]

/-- `channelRead` raises exactly where the method of the extension module does -/
theorem channelRead_raises_iff {W : World} {x : Ref} {e : Obj} {p : Ptr} (hx : W.Open x e p)
    (hs : ¬ INT_MAX < size) : (∃ exc, channelRead true source size = .error exc) ↔
      (Channel.read x source.eof (source.read 0 size).rc W).2 = .raised .libssh2 := by
  rw [read_result_open hx]
  by_cases heof : source.eof = 1
  · rw [channelRead_eof hs heof, if_pos heof]
    constructor
    · rintro ⟨exc, h⟩
      cases h
    · intro h
      cases h
  · rw [channelRead_read hs heof, if_neg heof]
    by_cases hrc : 0 ≤ (source.read 0 size).rc
    · rw [if_pos hrc, if_neg (by omega)]
      constructor
      · rintro ⟨exc, h⟩
        cases h
      · intro h
        cases h
    · rw [if_neg hrc, if_pos (by omega)]
      exact ⟨fun _ => rfl, fun _ => ⟨_, rfl⟩⟩

theorem channelReadEx_raises_iff {W : World} {x : Ref} {e : Obj} {p : Ptr} (hx : W.Open x e p)
    (hs : ¬ INT_MAX < size) : (∃ exc, channelReadEx true source size 0 = .error exc) ↔
      (Channel.readEx x (source.read 0 size).rc W).2 = .raised .libssh2 := by
  rw [Channel.readEx, guarded_result hx, channelReadEx_eq hs]
  by_cases hrc : 0 < (source.read 0 size).rc
  · rw [if_pos hrc, if_neg (by simpa using hrc)]
    constructor
    · rintro ⟨exc, h⟩
      cases h
    · intro h
      cases h
  · rw [if_neg hrc, if_pos (by simpa using hrc)]
    exact ⟨fun _ => rfl, fun _ => ⟨_, rfl⟩⟩

/-! ## agreement -/

/-- one returns bytes exactly if the other returns them with their number, and they raise together -/
structure Agree (r : Except PyExc PyBytes) (x : Except PyExc (Int × List UInt8)) : Prop where
  returns : ∀ b, (∃ v, r = .ok v ∧ v.bytes = b) ↔ x = .ok ((b.length : Int), b)
  raises : (∃ e, r = .error e) ↔ ∃ e, x = .error e

theorem agree_errors (e e' : PyExc) : Agree (.error e) (.error e') := by
  refine ⟨fun b => ⟨?_, fun h => by cases h⟩, fun _ => ⟨e', rfl⟩, fun _ => ⟨e, rfl⟩⟩
  rintro ⟨v, hv, _⟩
  cases hv

theorem agree_values (v : PyBytes) : Agree (.ok v) (.ok ((v.bytes.length : Int), v.bytes)) := by
  refine ⟨fun b => ?_, ⟨?_, ?_⟩⟩
  · constructor
    · rintro ⟨u, hu, rfl⟩
      cases hu
      rfl
    · intro h
      exact ⟨v, rfl, (Prod.mk.inj (Except.ok.inj h)).2⟩
  · rintro ⟨e, he⟩
    cases he
  · rintro ⟨e, he⟩
    cases he

theorem not_agree_ok_error (v : PyBytes) (e : PyExc) : ¬ Agree (.ok v) (.error e) := by
  intro h
  obtain ⟨e', he⟩ := h.raises.mpr ⟨e, rfl⟩
  cases he

/-- **When the readers agree.**  They part at the end of the stream: `read` gives an empty string there,
`read_ex` raises. -/
theorem readers_agree_iff (source : Source) (size : Nat) :
    Agree (channelRead true source size) (channelReadEx true source size 0) ↔
      INT_MAX < size ∨ (source.eof ≠ 1 ∧ (source.read 0 size).rc ≠ 0) := by
  by_cases hs : INT_MAX < size
  · simp only [channelRead, channelReadEx, if_true, if_pos hs]
    exact ⟨fun _ => Or.inl hs, fun _ => agree_errors _ _⟩
  rw [channelReadEx_eq hs]
  by_cases heof : source.eof = 1
  · rw [channelRead_eof hs heof]
    refine ⟨fun h => ?_, fun h => absurd heof ((h.resolve_left hs).1)⟩
    by_cases hrc : 0 < (source.read 0 size).rc
    · -- libssh2 would have bytes, and `read` does not ask it
      rw [if_pos hrc] at h
      have h1 := (h.returns []).mp ⟨_, rfl, rfl⟩
      have h2 := (Prod.mk.inj (Except.ok.inj h1)).1
      rw [h2] at hrc
      exact absurd hrc (by decide)
    · rw [if_neg hrc] at h
      exact absurd h (not_agree_ok_error _ _)
  · rw [channelRead_read hs heof]
    rcases lt_trichotomy (source.read 0 size).rc 0 with hrc | hrc | hrc
    · rw [if_neg (by omega), if_neg (by omega)]
      exact ⟨fun _ => Or.inr ⟨heof, by omega⟩, fun _ => agree_errors _ _⟩
    · rw [if_pos (by omega), if_neg (by omega)]
      exact ⟨fun h => absurd h (not_agree_ok_error _ _),
        fun h => absurd hrc (h.resolve_left hs).2⟩
    · rw [if_pos (by omega), if_pos hrc]
      refine ⟨fun _ => Or.inr ⟨heof, by omega⟩, fun _ => ?_⟩
      rw [(Received.rc_nonneg (Int.le_of_lt hrc)).2]
      exact agree_values (.bytearray _)

def drained : Source := ⟨1, fun _ _ => .data [], fun _ _ => Nat.zero_le _, (0, "")⟩

/-- at the end of file one returns and the other raises -/
theorem readers_differ_at_eof : ¬ ∀ (source : Source) (size : Nat), 0 < size → size ≤ INT_MAX →
    Agree (channelRead true source size) (channelReadEx true source size 0) := by
  intro hall
  exact not_agree_ok_error _ _ (hall drained 1024 (by decide) (by decide))

end PyLibssh2.Remote
