import PyLibssh2.Base.Relay
import PyLibssh2.Transfer.Put
import PyLibssh2.Transfer.Recv
import PyLibssh2.Transfer.Send

/-!
# Files on a route

A file can be sent with `Sftp.put` or `Session.scp_send_file`, copied on the server with `Sftp.copy_file`
and fetched with `Sftp.get` or `Session.scp_recv_file`.  A call that returned may have lost a part of it.

* `Hop`               the five calls that return, with what they leave at the other end;
* `hop_lossy`         none of them adds a byte or changes the order, and each has a condition for losing
  nothing;
* `route_whole_iff`   a file that has gone any way between the client and the server is the file that was
  sent exactly if every call on the way met its condition.
-/

set_option linter.unusedSectionVars false
set_option linter.unusedVariables false

namespace PyLibssh2.Transfer

open Loop World Remote

/-! ## the calls -/

inductive Side
  | client
  | server

/-- the local files are at the client, the remote ones at the server -/
inductive Hop : Side → Side → Prop → List UInt8 → List UInt8 → Prop
  /-- `Sftp.put`; the server stores `stored` under `dst` -/
  | put {as : List Act} {W : World} {f : Ref} {env : PutEnv} {dst : Path} {fs : Files}
    {content stored : List UInt8} {r : PutEnd} : Trans.Run Step World.empty as W →
    Halts (putRound f env dst fs content) (.entry W) r → r.raised = none → r.files dst = some stored →
    Hop .client .server (env.AcceptsWhole content) content stored
  /-- the loop of `Session.scp_send_file`; the server stores what the channel takes -/
  | scpSend {took : Nat → Nat} {content sent : List UInt8} :
    Halts (Scp.sendRound took) (Scp.sendStart content) sent →
    Hop .client .server (Scp.TakesWhole took 0 content) content sent
  /-- `Sftp.copy_file` -/
  | copyFile {isOpen : Bool} {srcReply dstReply : Reply} {answer : Nat → Option Nat}
    {write : Option Nat} {src dst : Path} {fs fs' : Files} {content copied : List UInt8} :
    fs src = some content →
    copyFile isOpen srcReply dstReply answer write src dst fs = (fs', .ok ()) → fs' dst = some copied →
    Hop .server .server ((src = dst → content = []) ∧
      delivered answer 0 content.length = content.length ∧ ∃ k, write = some k ∧ content.length ≤ k)
      content copied
  /-- `Sftp.get` -/
  | get {as : List Act} {W : World} {f : Ref} {env : GetEnv} {content : List UInt8} {r : GetEnd} :
    Trans.Run Step World.empty as W → Halts (getRound f env content) (.entry W) r → r.raised = none →
    Hop .server .client (∀ j, env.pos content.length j < content.length → ∃ m, env.read j = .data m)
      content r.file
  /-- `Session.scp_recv_file`; the server announces the length of the file, and `tail` may follow it -/
  | scpRecv {as : List Act} {W W' : World} {s c : Ref} {a : Answer} {content tail : List UInt8}
    {answer : Nat → Scp.ReadAnswer} {r : Scp.RecvEnd} : Trans.Run Step World.empty as W →
    Session.scpRecv s a W = (W', .obj c) →
    Halts (Scp.recvRound s c content.length answer) (Scp.recvStart W' (content ++ tail)) r →
    r.raised = none → Hop .server .client True content r.file

variable {f : Ref} {env : PutEnv} {dst : Path} {content : List UInt8} {W : World} {r : PutEnd}

/-! ## what can be lost -/

theorem PutEnds.stored (h : PutEnds f env dst content W r) (hret : r.raised = none) :
    ∃ i, content.length ≤ i * BUFFER_SIZE ∧ r.files dst = some (env.accepted content i) := by
  cases h with
  | noLocal _ hno _ => exact absurd hret hno
  | refused _ _ hno _ => exact absurd hret hno
  | failed _ _ _ hno _ => exact absurd hret hno
  | done i _ _ _ _ hle hfiles _ _ => exact ⟨i, hle, hfiles⟩

theorem GetEnds.taken {env : GetEnv} {r : GetEnd} (h : GetEnds f env content W r)
    (hret : r.raised = none) : ∃ i, r.file = content.take (env.pos content.length i) ∧
      (r.file = content ↔
        ∀ j, env.pos content.length j < content.length → ∃ m, env.read j = .data m) := by
  cases h with
  | refused _ hno _ => exact absurd hret hno
  | noLocal _ _ hno _ => exact absurd hret hno
  | failed _ _ _ _ _ hno _ => exact absurd hret hno
  | unclosed _ _ _ hno _ => exact absurd hret hno
  | done i _ _ _ hw h0 _ hfile _ =>
    refine ⟨i, hfile, ?_⟩
    rw [hfile]
    exact taken_eq_iff hw h0

/-- what was sent, the buffer and the unread rest are a part of the file, in order -/
def SendPart (content : List UInt8) (s : Scp.SendState) : Prop :=
  (s.sent ++ (s.buf ++ s.rest)).Sublist content

theorem slice_sublist (n : Nat) (buf : List UInt8) :
    (buf.take n ++ Scp.sliceToLast n buf).Sublist buf := by
  have hdrop : (Scp.sliceToLast n buf).Sublist (buf.drop n) :=
    (List.take_sublist (buf.length - 1) buf).drop n
  calc (buf.take n ++ Scp.sliceToLast n buf).Sublist (buf.take n ++ buf.drop n) :=
        (List.Sublist.refl _).append hdrop
    _ = buf := List.take_append_drop n buf

theorem sendPart_next {took : Nat → Nat} {s s' : Scp.SendState} (h : SendPart content s)
    (hs : Scp.sendRound took s = .next s') : SendPart content s' := by
  by_cases hpos : 0 < s.buf.length
  · by_cases h0 : took s.writes = 0
    · rw [Scp.sendRound_zero hpos h0] at hs
      cases hs
      exact h
    · by_cases hfull : Scp.written took s.writes s.buf = Scp.writeLen
      · rw [Scp.sendRound_full hpos hfull] at hs
        cases hs
        show ((s.sent ++ s.buf.take Scp.writeLen) ++
          (s.rest.take Scp.writeLen ++ s.rest.drop Scp.writeLen)).Sublist content
        rw [List.take_append_drop, List.append_assoc]
        refine List.Sublist.trans ?_ h
        exact (List.Sublist.refl _).append ((List.take_sublist _ _).append (List.Sublist.refl _))
      · rw [Scp.sendRound_cut hpos h0 hfull] at hs
        cases hs
        show ((s.sent ++ s.buf.take (Scp.written took s.writes s.buf)) ++
          (Scp.sliceToLast (Scp.written took s.writes s.buf) s.buf ++ s.rest)).Sublist content
        rw [List.append_assoc, ← List.append_assoc (s.buf.take _)]
        refine List.Sublist.trans ?_ h
        exact (List.Sublist.refl _).append ((slice_sublist _ _).append (List.Sublist.refl _))
  · rw [Scp.sendRound_stop (List.length_eq_zero_iff.mp (by omega))] at hs
    cases hs

theorem sendLoop_sublist {took : Nat → Nat} {sent : List UInt8}
    (h : Halts (Scp.sendRound took) (Scp.sendStart content) sent) : sent.Sublist content := by
  have hstart : SendPart content (Scp.sendStart content) := by
    show ([] ++ (content.take Scp.writeLen ++ content.drop Scp.writeLen)).Sublist content
    rw [List.nil_append, List.take_append_drop]
  refine h.inv (SendPart content) (fun sent => sent.Sublist content)
    (fun s s' hI hs => sendPart_next hI hs) (fun s r hI hs => ?_) hstart
  have hsent : r = s.sent := by
    by_cases hpos : 0 < s.buf.length
    · obtain ⟨q, hq⟩ := sendRound_goes took hpos
      rw [hq] at hs
      cases hs
    · rw [Scp.sendRound_stop (List.length_eq_zero_iff.mp (by omega))] at hs
      cases hs
      rfl
  rw [hsent]
  exact (List.sublist_append_left _ _).trans hI

theorem recvLoop_whole {as : List Act} {W' : World} {s c : Ref} {a : Answer} {tail : List UInt8}
    {answer : Nat → Scp.ReadAnswer} {r : Scp.RecvEnd} (hr : Trans.Run Step World.empty as W)
    (hopen : Session.scpRecv s a W = (W', .obj c))
    (h : Halts (Scp.recvRound s c content.length answer) (Scp.recvStart W' (content ++ tail)) r)
    (hret : r.raised = none) : r.file = content := by
  have hnew : W.fresh + 1 ∉ W.members s .channel := fun hm =>
    absurd ((young_run hr).members s .channel _ hm) (Nat.not_lt.mpr (Nat.le_succ _))
  have hrec := h.inv (Scp.Receiving s c (W.reg s .channel) content.length (content ++ tail))
    (Scp.Received s c content.length (content ++ tail))
    (fun _ _ hI hs => (Scp.receiving_next hI hs).1) (fun _ _ hI hs => (Scp.receiving_stop hI hs).1)
    (Scp.receiving_start (Scp.fetching_of_scpRecv hopen hnew))
  rw [hrec.file, hrec.finished hret, List.take_left]

theorem copyFile_copied {isOpen : Bool} {srcReply dstReply : Reply} {answer : Nat → Option Nat}
    {write : Option Nat} {src dst : Path} {fs fs' : Files} {copied : List UInt8}
    (hsrc : fs src = some content)
    (h : copyFile isOpen srcReply dstReply answer write src dst fs = (fs', .ok ()))
    (hdst : fs' dst = some copied) :
    ∃ k, write = some k ∧ copied = (readAll answer (atRead src dst content)).take k := by
  by_cases hopen : isOpen = true ∧ srcReply = .ok ∧ dstReply = .ok
  · obtain ⟨ho, hsr, hdr⟩ := hopen
    rw [hsr, hdr, copyFile_open ho hsrc] at h
    by_cases hfail : INT_MAX < (readAll answer (atRead src dst content)).length ∨ write = none
    · obtain ⟨e, he⟩ := sftpfileWrite_fails dst (Function.update fs dst (some [])) hfail
      rw [he] at h
      cases h
    · obtain ⟨hl, hw⟩ := not_or.mp hfail
      obtain ⟨k, hk⟩ := Option.ne_none_iff_exists'.mp hw
      obtain ⟨n, hn⟩ := sftpfileWrite_some dst fs k hl
      rw [hk, hn] at h
      have hfs : fs' = Function.update fs dst (some ((readAll answer (atRead src dst content)).take k)) :=
        (congrArg Prod.fst h).symm
      rw [hfs, Function.update_self] at hdst
      exact ⟨k, hk, (Option.some.inj hdst).symm⟩
  · have hfails : ∃ e, (copyFile isOpen srcReply dstReply answer write src dst fs).2 = .error e :=
      copyFile_notOpen hopen
    obtain ⟨e, he⟩ := hfails
    rw [h] at he
    cases he

/-! ## the route -/

theorem hop_lossy : Relay.Lossy Hop where
  part h := by
    cases h with
    | put hr hput hret hstored =>
      obtain ⟨i, hle, hfiles⟩ := ((put_ends (young_run hr) _ _ _ _ _).2 _ hput).stored hret
      rw [Option.some.inj (hstored.symm.trans hfiles)]
      exact (Blocks.through_sublist _ _ _ i).trans (List.take_sublist _ _)
    | scpSend hsend => exact sendLoop_sublist hsend
    | @copyFile isOpen srcReply dstReply answer write src dst fs fs' content copied hsrc hcopy hdst =>
      obtain ⟨k, _, hcopied⟩ := copyFile_copied hsrc hcopy hdst
      rw [hcopied, readAll_eq]
      refine (List.take_sublist _ _).trans ((List.take_sublist _ _).trans ?_)
      unfold atRead
      split
      · exact List.nil_sublist _
      · exact List.Sublist.refl _
    | get hr hget hret =>
      obtain ⟨i, hfile, _⟩ := ((get_ends (young_run hr) _ _ _).2 _ hget).taken hret
      rw [hfile]
      exact List.take_sublist _ _
    | scpRecv hr hopen hrecv hret =>
      rw [recvLoop_whole hr hopen hrecv hret]
  whole h := by
    cases h with
    | put hr hput hret hstored =>
      obtain ⟨i, hle, hfiles⟩ := ((put_ends (young_run hr) _ _ _ _ _).2 _ hput).stored hret
      rw [Option.some.inj (hstored.symm.trans hfiles)]
      exact Blocks.through_eq_iff (by decide) hle
    | scpSend hsend => exact Scp.sendLoop_result hsend
    | @copyFile isOpen srcReply dstReply answer write src dst fs fs' content copied hsrc hcopy hdst =>
      obtain ⟨k, hk, hcopied⟩ := copyFile_copied hsrc hcopy hdst
      rw [hcopied, take_readAll_iff]
      constructor
      · intro h1
        exact ⟨h1.1, h1.2.1, k, hk, h1.2.2⟩
      · intro h1
        obtain ⟨h2, h3, k', hk', h4⟩ := h1
        rw [hk] at hk'
        rw [Option.some.inj hk']
        exact ⟨h2, h3, h4⟩
    | get hr hget hret =>
      obtain ⟨i, _, hwhole⟩ := ((get_ends (young_run hr) _ _ _).2 _ hget).taken hret
      exact hwhole
    | scpRecv hr hopen hrecv hret =>
      exact iff_of_true (recvLoop_whole hr hopen hrecv hret) trivial

/-- **Files on a route.**  What arrives is a part of what was sent, in order, and it is all of it exactly
if every call on the way met its condition; that they all returned says nothing. -/
theorem route_whole_iff {a b : Side} {Ps : List Prop} {final : List UInt8}
    (h : Relay.Route Hop a content b Ps final) :
    final.Sublist content ∧ (final = content ↔ ∀ P ∈ Ps, P) :=
  ⟨hop_lossy.sublist h, hop_lossy.whole_iff h⟩

/-- two bytes, put in one write and got back byte by byte -/
theorem route_whole_iff_two : ∃ Ps final, Relay.Route Hop .client [1, 2] .client Ps final ∧
    final.Sublist [1, 2] ∧ (final = [1, 2] ↔ ∀ P ∈ Ps, P) := by
  obtain ⟨as, hr⟩ := withSftp_run
  have hput : Halts (putRound 3 (acceptsUpTo 1) "b" (fun _ => none) [1, 2]) (.entry withSftp) _ :=
    ⟨3, rfl⟩
  have hget : Halts (getRound 3 byteByByte [1, 2]) (.entry withSftp) _ := ⟨4, rfl⟩
  have h0 : Relay.Route Hop .client [1, 2] .client [] [1, 2] := .here
  have h2 := (h0.on (Hop.put hr hput rfl rfl)).on (Hop.get hr hget rfl)
  exact ⟨_, _, h2, route_whole_iff h2⟩

end PyLibssh2.Transfer
