import Turnstile.Proofs.Card.UserText
import Turnstile.Proofs.Text.Cut

/-!
# Texts that are too long for a card

A block holds the first octets of a text, filled up with spaces if there are too few. Octets, not
characters, are counted, so the last character may be cut in two.

* `UserText.decode_encode_of_not_splits`: a text whose characters all stay whole is read as the
  longest beginning that there is room for, without the padding at its ends.
* `UserText.decode_encode_of_splits`: if a character is split, a mark is read behind that.
* `UserText.truncation_clean_iff`: **the cut is clean if and only if no character is split.**
-/

namespace Turnstile

namespace UserText

variable {text : String}

/-- A text that has no zero is written without one. -/
theorem zero_not_mem_block (h : '\x00' ∉ text.toList) : (0 : UInt8) ∉ encode text := by
  have hzero := zero_not_mem_encode h
  rw [String.ofList_toList] at hzero
  rw [encode]
  intro hmem
  rcases List.mem_append.1 hmem with hmem | hmem
  · exact hzero (List.mem_of_mem_take hmem)
  · exact absurd (List.eq_of_mem_replicate hmem) (by decide)

/-- **A text of which no character is split** is read as the longest beginning that there is room for,
without the padding at its ends. -/
theorem decode_encode_of_not_splits (hzero : '\x00' ∉ text.toList)
    (hwhole : ¬ Utf8.Splits blockSize text.toList) :
    decode (encode text) =
      String.ofList (Text.trim isPadding (Utf8.fit blockSize text.toList)) := by
  let kept := Utf8.fit blockSize text.toList
  have hkept : '\x00' ∉ kept := fun h => hzero ((Utf8.fit_starts blockSize text.toList).subset h)
  have hroom : (Utf8.encode (String.ofList kept)).length ≤ blockSize := by
    rw [← Utf8.take_encode_of_not_splits hwhole]
    exact List.length_take_le _ _
  obtain ⟨n, hencode⟩ := encode_of_short hroom
  -- the block is the one that the beginning alone is written as
  have hblock : encode text = encode (String.ofList kept) := by
    have htake := Utf8.take_encode_of_not_splits hwhole
    rw [encode, encode, htake, List.take_of_length_le hroom]
  rw [hblock, hencode, String.toList_ofList, decode_filled hkept]

/-- **A text of which a character is split** is read as the longest beginning that there is room for
without the padding at its start, and a mark. -/
theorem decode_encode_of_splits (hzero : '\x00' ∉ text.toList)
    (hsplit : Utf8.Splits blockSize text.toList) :
    decode (encode text) = String.ofList
      (Text.trimStart isPadding (Utf8.fit blockSize text.toList) ++ ['\uFFFD']) := by
  -- there are octets enough to fill the block
  have hfull : ((Utf8.encode text).take blockSize).length = blockSize := by
    have hlong := hsplit.lt
    rw [String.utf8Len_toList, ← Utf8.length_encode] at hlong
    rw [List.length_take, Nat.min_eq_left (Nat.le_of_lt hlong)]
  have hblock : encode text = (Utf8.encode text).take blockSize := by
    rw [encode, hfull, Nat.sub_self, List.replicate_zero, List.append_nil]
  rw [decode_of_no_zero (zero_not_mem_block hzero), hblock, Utf8.decodeLossy_take hsplit,
    String.toList_ofList, Text.trim_concat (by decide)]

end UserText

open UserText in
/-- **The cut is clean if and only if no character is split.** For every text without a zero take the
longest beginning, made of whole characters, that a block has room for. If no character is split, the
text of the block is that beginning without the padding at its ends. If one is, it is that beginning
without the padding at its start, and a mark behind it, which the text need not contain. -/
theorem truncation_clean_iff (text : String) (hzero : '\x00' ∉ text.toList) :
    ∃ kept : String, Utf8.LongestFit blockSize text kept ∧
      (Text.Trims isPadding kept.toList (decode (encode text)).toList ↔
        ¬ Utf8.Splits blockSize text.toList) ∧
      (Utf8.Splits blockSize text.toList → decode (encode text) =
        String.ofList (Text.trimStart isPadding kept.toList ++ ['\uFFFD'])) ∧
      ((∀ c ∈ (decode (encode text)).toList, c ∈ text.toList) ↔
        ¬ Utf8.Splits blockSize text.toList ∨ '\uFFFD' ∈ text.toList) := by
  have hfit := Utf8.longestFit_fit blockSize text
  have hstarts := Utf8.fit_starts blockSize text.toList
  refine ⟨_, hfit, ?_⟩
  rw [String.toList_ofList]
  by_cases hsplit : Utf8.Splits blockSize text.toList
  · have hread := decode_encode_of_splits hzero hsplit
    rw [hread, String.toList_ofList]
    refine ⟨iff_of_false ?_ (not_not_intro hsplit), fun _ => rfl, ?_⟩
    · -- trimming never makes a text longer
      intro htrims
      have hlength := congrArg List.length (Text.trims_iff.1 htrims)
      have hshorter := (List.rdropWhile_prefix isPadding
        (Text.trimStart isPadding (Utf8.fit blockSize text.toList))).length_le
      rw [List.length_append, List.length_singleton, Text.trim] at hlength
      exact absurd (hlength.trans_le hshorter) (by omega)
    · have hkept : ∀ c ∈ Text.trimStart isPadding (Utf8.fit blockSize text.toList), c ∈ text.toList :=
        fun c hc => hstarts.subset ((List.dropWhile_suffix isPadding).subset hc)
      simp only [List.mem_append, List.mem_singleton, or_imp, forall_and, forall_eq, hsplit,
        not_true_eq_false, false_or]
      exact and_iff_right hkept
  · have hread := decode_encode_of_not_splits hzero hsplit
    have htrims := Text.trims_trim isPadding (Utf8.fit blockSize text.toList)
    rw [hread, String.toList_ofList]
    refine ⟨iff_of_true htrims hsplit, fun h => absurd h hsplit, iff_of_true ?_ (.inl hsplit)⟩
    intro c hc
    obtain ⟨before, after, heq, -⟩ := htrims.around
    refine hstarts.subset ?_
    rw [heq]
    exact List.mem_append_left _ (List.mem_append_right _ hc)

open UserText in
/-- A name that is cut behind a whole character is read as its beginning, without the tab in front;
one that is cut in the middle of its last character is not. -/
theorem truncation_clean_iff_names :
    decode (encode "\tJosé Núñez Peña") = "José Núñez P" ∧
      Text.Trims isPadding "\tJosé Núñez P".toList (decode (encode "\tJosé Núñez Peña")).toList ∧
      Utf8.Splits blockSize "AAAAAAAAAAAAAAAé".toList ∧
      decode (encode "AAAAAAAAAAAAAAAé") = "AAAAAAAAAAAAAAA\uFFFD" := by
  have hread : decode (encode "\tJosé Núñez Peña") = "José Núñez P" := by decide +kernel
  refine ⟨hread, ?_, ?_, by decide +kernel⟩
  · obtain ⟨kept, hkept, hclean, -, hchars⟩ := truncation_clean_iff "\tJosé Núñez Peña" (by decide +kernel)
    have hinside : "José Núñez P".toList <:+: "\tJosé Núñez Peña".toList :=
      ⟨['\t'], "eña".toList, by decide +kernel⟩
    have hwhole : ¬ Utf8.Splits blockSize "\tJosé Núñez Peña".toList := by
      rcases hchars.1 (hread ▸ fun c hc => hinside.subset hc) with h | h
      · exact h
      · exact absurd h (by decide +kernel)
    have hlongest : kept = "\tJosé Núñez P" :=
      (Utf8.longestFit_iff.1 hkept).trans (by decide +kernel)
    rw [← hlongest]
    exact hclean.2 hwhole
  · exact ⟨"AAAAAAAAAAAAAAA".toList, 'é', [], by decide +kernel, by decide +kernel, by decide +kernel⟩

open UserText in
/-- A text of fifteen letters and one more that takes two octets: a block has room for the fifteen,
and a character that the text does not contain is read behind them. -/
theorem split_character_read_as_mark :
    '\x00' ∉ "AAAAAAAAAAAAAAAé".toList ∧
      Utf8.LongestFit blockSize "AAAAAAAAAAAAAAAé" "AAAAAAAAAAAAAAA" ∧
      ¬ Text.Trims isPadding "AAAAAAAAAAAAAAA".toList (decode (encode "AAAAAAAAAAAAAAAé")).toList ∧
      '\uFFFD' ∈ (decode (encode "AAAAAAAAAAAAAAAé")).toList ∧ '\uFFFD' ∉ "AAAAAAAAAAAAAAAé".toList := by
  refine ⟨by decide +kernel, Utf8.longestFit_iff.2 (by decide +kernel), ?_, by decide +kernel,
    by decide +kernel⟩
  rw [Text.trims_iff]
  decide +kernel

end Turnstile
