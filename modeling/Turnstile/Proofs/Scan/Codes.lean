import Turnstile.Proofs.Scan.Lines
import Turnstile.Proofs.Scan.Rest
import Turnstile.Proofs.Text.Mending

/-!
# What a code is made of

A code is read from what a frame carries or from a line. The octets are cut before they are read.

* `Payload`: the octets that a code can be read from.
* `IsCode`: a text that was read from such octets.
* `next_isCode`, `drain_isCode`: every code is one.
* `IsCode.utf8ByteSize_le`: **a code takes as many octets as were read, and two more for each broken
  run.** Codes are compared by as many octets as are read, so a code can be longer than that.
-/

namespace Turnstile.ScanBuffer

/-- The octets that a code can be read from: what a frame carries, or a line. -/
inductive Payload : Bytes → Prop
  | frame (p : Packet) : Payload p.data
  | line (data : Bytes) (fits : data.length ≤ capacity) (legible : Legible data) : Payload data

/-- What is read of them: no zero octet, none behind one, and no more than codes are compared by. -/
def kept (data : Bytes) : Bytes :=
  (data.takeWhile (· ≠ 0)).take Debounce.codeCapacity

/-- Whether a text is a code that octets hold. -/
structure IsCode (data : Bytes) (text : String) : Prop where
  payload : Payload data
  read : text = Utf8.decodeLossy (kept data)
  nonempty : text ≠ ""

variable {s after : ScanBuffer} {data : Bytes} {dropped : List Entry} {text : String}

/-! ## Where codes come from -/

theorem takeFrame_payload (h : s.takeFrame = (some data, after)) : Payload data := by
  unfold takeFrame at h
  split at h
  · cases h
  · dsimp only at h
    split at h
    · rename_i start length rest hdrop
      split_ifs at h with hlength hrest
      · cases h
      · cases h
      · simp only [Prod.mk.injEq, Option.some.injEq] at h
        obtain ⟨rfl, -⟩ := h
        obtain ⟨hpos, hmax⟩ := not_or.1 hlength
        have hdata : (rest.take length.toNat).length = length.toNat :=
          List.length_take_of_le (Nat.not_lt.1 hrest)
        have hzero : length.toNat ≠ 0 := fun h => hpos (UInt8.toNat_inj.1 h)
        exact .frame ⟨rest.take length.toNat, by omega, by omega⟩
    · cases h

theorem length_trimLine_le (line : Bytes) : (trimLine line).length ≤ line.length := by
  have hle := (List.dropWhile_suffix (l := line.reverse) fun b => isSeparator b || b = 0x20).length_le
  rw [List.length_reverse] at hle
  rw [trimLine, List.length_reverse]
  exact hle

theorem takeLine_payload (hroom : s.bytes.length ≤ capacity)
    (h : s.takeLine = (some data, after, dropped)) : Payload data := by
  have hcases := takeLine_cases s
  rw [h] at hcases
  cases hcases with
  | text line ends rest hs hline hne hends ht =>
    refine .line _ ((length_trimLine_le line).trans ?_) ((isText_iff _).1 ht)
    rw [hs, List.length_append] at hroom
    omega

theorem attempt_payload (hroom : s.bytes.length ≤ capacity)
    (h : s.attempt = (some data, after, dropped)) : Payload data := by
  unfold attempt at h
  match hs : s.takeFrame with
  | (some found, rest) =>
    rw [hs] at h
    cases h
    exact takeFrame_payload hs
  | (none, rest) =>
    rw [hs] at h
    have hle := takeFrame_le s
    rw [hs] at hle
    exact takeLine_payload (hle.trans hroom) h

/-- The code that a search finds was read from octets that were buffered. -/
theorem next_isCode {s : ScanBuffer} :
    s.bytes.length ≤ capacity → s.next.1 = some text → ∃ data, IsCode data text := by
  fun_induction next s with
  | case1 s found after dropped hattempt code hcode =>
    intro hroom hfound
    obtain rfl := Option.some.inj hfound
    cases found with
    | none => exact absurd rfl hcode
    | some data => exact ⟨data, attempt_payload hroom hattempt, rfl, hcode⟩
  | case2 s found after dropped hattempt code hcode hlt more rest log hnext ih =>
    intro hroom hfound
    rw [hnext] at ih
    exact ih (hlt.le.trans hroom) hfound
  | case3 s found after dropped hattempt code hcode hlt =>
    intro _ hfound
    exact absurd hfound (Option.some_ne_none _).symm

/-- So was every code of a buffer that is drained. -/
theorem drain_isCode {s : ScanBuffer} :
    s.bytes.length ≤ capacity → ∀ code ∈ s.drain.1, ∃ data, IsCode data code := by
  unfold drain
  fun_induction codes s with
  | case1 s rest dropped hnext =>
    intro _ code hcode
    exact absurd hcode List.not_mem_nil
  | case2 s code rest dropped hnext hlt more after last hcodes ih =>
    intro hroom other hother
    rw [hcodes] at ih
    rcases List.mem_cons.1 hother with rfl | hother
    · exact next_isCode hroom (by rw [hnext])
    · exact ih (hlt.le.trans hroom) other hother
  | case3 s code rest dropped hnext hlt =>
    intro hroom other hother
    obtain rfl := List.mem_singleton.1 hother
    exact next_isCode hroom (by rw [hnext])

theorem drain_le {s : ScanBuffer} : s.drain.2.bytes.length ≤ s.bytes.length := by
  unfold drain
  fun_induction codes s with
  | case1 s rest dropped hnext =>
    have hle := next_le s
    rw [hnext] at hle
    exact hle
  | case2 s code rest dropped hnext hlt more after last hcodes ih =>
    rw [hcodes] at ih
    exact ih.trans hlt.le
  | case3 s code rest dropped hnext hlt =>
    have hle := next_le s
    rw [hnext] at hle
    exact hle

/-! ## How long codes are -/

theorem length_kept_le (data : Bytes) : (kept data).length ≤ 255 :=
  List.length_take_le _ _

theorem kept_sublist (data : Bytes) : (kept data).Sublist data :=
  (List.take_sublist _ _).trans (List.takeWhile_sublist _)

theorem zero_not_mem_kept (data : Bytes) : (0 : UInt8) ∉ kept data := by
  intro hzero
  have hne := List.mem_takeWhile_imp (List.mem_of_mem_take hzero)
  simp at hne

/-- At most one octet of five is outside the first 128. -/
theorem Legible.countP_isHigh_le (h : Legible data) : 5 * data.countP Utf8.isHigh ≤ data.length := by
  have hall := List.length_eq_countP_add_countP (l := data)
    (fun b : UInt8 => decide (0x20 ≤ b.toNat ∧ b.toNat ≤ 0x7E))
  have hother : data.countP Utf8.isHigh ≤
      data.countP fun b => decide ¬ decide (0x20 ≤ b.toNat ∧ b.toNat ≤ 0x7E) = true := by
    refine List.countP_mono_left fun b _ hhigh => decide_eq_true ?_
    have hb : 0x80 ≤ b.toNat := of_decide_eq_true hhigh
    rw [decide_eq_true_eq]
    omega
  have hshare := h.2
  omega

/-- What a frame carries is short, and in a line few runs are broken. -/
theorem Payload.bound (h : Payload data) :
    (kept data).length + 2 * Utf8.brokenRuns (kept data) ≤ 750 := by
  have hbroken := Utf8.brokenRuns_le (kept data)
  cases h with
  | frame p =>
    have hlength := (kept_sublist p.data).length_le
    have hhigh : (kept p.data).countP Utf8.isHigh ≤ (kept p.data).length := List.countP_le_length
    have hmax : p.data.length ≤ 250 := p.fits
    omega
  | line data fits legible =>
    have hlength := length_kept_le data
    have hhigh := (kept_sublist data).countP_le (p := Utf8.isHigh)
    have hshare := legible.countP_isHigh_le
    have hmax : data.length ≤ 1024 := fits
    omega

namespace IsCode

/-- A code takes as many octets as the mended ones are. -/
theorem utf8ByteSize_eq (h : IsCode data text) : text.utf8ByteSize = (Utf8.mend (kept data)).length := by
  rw [h.read, Utf8.utf8ByteSize_decodeLossy]

/-- **A code takes as many octets as were read, and two more for each broken run.** -/
theorem utf8ByteSize_le (h : IsCode data text) :
    text.utf8ByteSize ≤ (kept data).length + 2 * Utf8.brokenRuns (kept data) := by
  rw [h.utf8ByteSize_eq]
  exact Utf8.length_mend_le (kept data)

theorem null_not_mem (h : IsCode data text) : '\x00' ∉ text.toList := by
  rw [h.read]
  exact Utf8.null_not_mem_decodeLossy (zero_not_mem_kept data)

end IsCode

end Turnstile.ScanBuffer
