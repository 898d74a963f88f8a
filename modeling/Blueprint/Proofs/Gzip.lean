import Blueprint.Nbt.Document

/-!
# Streams are opened again

The writer puts the content into stored blocks, so of the inflater only the part for such
blocks meets what was written. It takes the blocks one after another, and the content comes
out with a trailer that fits.
-/

namespace Blueprint.Gzip

namespace Inflate

variable {α β : Type}

/-! ## Steps of the inflater -/

/-- One reader goes on where the one before it stopped. -/
theorem run_bind_ok {x : Inflater α} {f : α → Inflater β} {s s' : State} {a : α}
    (h : x.run.run s = (.ok a, s')) : (x >>= f).run.run s = (f a).run.run s' := by
  rw [ExceptT.run_bind, StateT.run_bind, h]
  rfl

/-- A byte is taken from the front, and bits that are pending stay so. -/
theorem byte_cons (pending : List Bool) (b : UInt8) (rest : List UInt8) (output : Array UInt8) :
    byte.run.run ⟨pending, b :: rest, output⟩ = (.ok b, ⟨pending, rest, output⟩) := rfl

/-- A byte is put out. -/
theorem emit_run (b : UInt8) (s : State) :
    (emit b).run.run s = (.ok (), { s with output := s.output.push b }) := rfl

/-- Stored bytes are produced as they are. -/
theorem stored_append (pending : List Bool) (bytes rest : List UInt8) (output : Array UInt8) :
    (stored bytes.length).run.run ⟨pending, bytes ++ rest, output⟩ =
      (.ok (), ⟨pending, rest, output ++ bytes.toArray⟩) := by
  induction bytes generalizing output with
  | nil =>
    rw [Array.append_empty]
    rfl
  | cons b bytes ih =>
    rw [List.length_cons, List.cons_append, stored, run_bind_ok (byte_cons _ _ _ _),
      run_bind_ok (emit_run _ _), ih]
    simp

/-! ## Stored blocks -/

/-- The two bytes of a length stand for it. -/
theorem encode_two {n : Nat} (h : n ≤ 65535) :
    ∃ low high : UInt8, BigEndian.encode 2 n = [high, low] ∧ low.toNat + 256 * high.toNat = n := by
  refine ⟨UInt8.ofNat n, UInt8.ofNat (n >>> 8), rfl, ?_⟩
  rw [UInt8.toNat_ofNat', UInt8.toNat_ofNat', Nat.shiftRight_eq_div_pow]
  omega

/-- The part of a block after its first byte. -/
theorem storedBlock_append {bytes : List UInt8} (h : bytes.length ≤ 65535) (isLast : Bool)
    (rest : List UInt8) :
    ∃ body, Gzip.storedBlock isLast bytes ++ rest = (if isLast then 1 else 0) :: body ∧
      ∀ pending output, storedBlock.run.run ⟨pending, body, output⟩ =
        (.ok (), ⟨[], rest, output ++ bytes.toArray⟩) := by
  obtain ⟨low, high, hsize, hvalue⟩ := encode_two h
  refine ⟨low :: high :: ~~~low :: ~~~high :: (bytes ++ rest), ?_, fun pending output => ?_⟩
  · simp [Gzip.storedBlock, hsize]
  · have hstart : (modify fun s => { s with pending := [] } : Inflater Unit).run.run
        ⟨pending, low :: high :: ~~~low :: ~~~high :: (bytes ++ rest), output⟩ =
          (.ok (), ⟨[], low :: high :: ~~~low :: ~~~high :: (bytes ++ rest), output⟩) := rfl
    rw [storedBlock, run_bind_ok hstart, run_bind_ok (byte_cons _ _ _ _),
      run_bind_ok (byte_cons _ _ _ _), run_bind_ok (byte_cons _ _ _ _),
      run_bind_ok (byte_cons _ _ _ _)]
    simp only [bne_self_eq_false, Bool.or_self, Bool.false_eq_true, if_false, hvalue]
    exact stored_append [] bytes rest output

/-- The first byte of a block says whether it is the last, and that it is stored. -/
theorem header_run (isLast : Bool) (body : List UInt8) (output : Array UInt8) :
    bit.run.run ⟨[], (if isLast then 1 else 0) :: body, output⟩ =
        (.ok isLast, ⟨List.replicate 7 false, body, output⟩) ∧
      (bits 2).run.run ⟨List.replicate 7 false, body, output⟩ =
        (.ok 0, ⟨List.replicate 5 false, body, output⟩) := by
  cases isLast <;> exact ⟨rfl, rfl⟩

/-- A stored block gives its bytes, and the blocks after it go on from there. -/
theorem blocks_storedBlock {bytes : List UInt8} (h : bytes.length ≤ 65535) (isLast : Bool)
    (symbolFuel fuel : Nat) (rest : List UInt8) (output : Array UInt8) :
    (blocks symbolFuel (fuel + 1)).run.run
        ⟨[], Gzip.storedBlock isLast bytes ++ rest, output⟩ =
      (if isLast then pure () else blocks symbolFuel fuel).run.run
        ⟨[], rest, output ++ bytes.toArray⟩ := by
  obtain ⟨body, hbytes, hblock⟩ := storedBlock_append h isLast rest
  obtain ⟨hlast, htype⟩ := header_run isLast body output
  rw [hbytes, blocks, run_bind_ok hlast, run_bind_ok htype]
  exact run_bind_ok (hblock _ output)

/-- The blocks of a content give it, if there is fuel for them. -/
theorem blocks_storedBlocks (content : List UInt8) (symbolFuel : Nat) {fuel : Nat}
    (hfuel : content.length < fuel) (rest : List UInt8) (output : Array UInt8) :
    (blocks symbolFuel fuel).run.run ⟨[], storedBlocks content ++ rest, output⟩ =
      (.ok (), ⟨[], rest, output ++ content.toArray⟩) := by
  obtain ⟨fuel, rfl⟩ := Nat.exists_eq_add_one.2 (Nat.zero_lt_of_lt hfuel)
  -- a block that is not the last takes 65535 bytes of content and one unit of fuel
  induction content using storedBlocks.induct generalizing fuel output with
  | case1 content hshort =>
    rw [storedBlocks, if_pos hshort, blocks_storedBlock hshort]
    rfl
  | case2 content hlong ih =>
    have hblock : (content.take 65535).length ≤ 65535 := List.length_take_le _ _
    have hmore : (content.drop 65535).length < fuel := by
      rw [List.length_drop]
      omega
    obtain ⟨fuel, rfl⟩ := Nat.exists_eq_add_one.2 (Nat.zero_lt_of_lt hmore)
    rw [storedBlocks, if_neg hlong, List.append_assoc, blocks_storedBlock hblock]
    simp only [Bool.false_eq_true, if_false]
    rw [ih _ fuel hmore, Array.append_assoc, List.append_toArray (content.take 65535),
      List.take_append_drop]

end Inflate

/-! ## Streams -/

/-- Stored blocks are no shorter than their content. -/
theorem length_le_storedBlocks (content : List UInt8) :
    content.length ≤ (storedBlocks content).length := by
  induction content using storedBlocks.induct with
  | case1 content hshort =>
    rw [storedBlocks, if_pos hshort]
    simp [storedBlock]
    omega
  | case2 content hlong ih =>
    rw [storedBlocks, if_neg hlong]
    simp [storedBlock] at ih ⊢
    omega

/-- Stored blocks are inflated to their content, up to what follows them. -/
theorem inflate_storedBlocks (content rest : List UInt8) :
    inflate (storedBlocks content ++ rest) = (content.toArray, .complete rest) := by
  have hlength := length_le_storedBlocks content
  have hrun := Inflate.blocks_storedBlocks content
    (8 * (storedBlocks content ++ rest).length + 1)
    (show content.length < 8 * (storedBlocks content ++ rest).length + 1 by
      rw [List.length_append]
      omega) rest #[]
  rw [Array.empty_append] at hrun
  simp only [inflate, hrun]

/-- The trailer has eight bytes. -/
theorem length_trailer (content : List UInt8) : (trailer content).length = 8 := by
  simp [trailer, trailerWord]

/-- **Streams are opened again**: the content of a stream that was written is all that was
put into it. -/
theorem content?_compress (content : List UInt8) :
    content? (compress content) = some ⟨content, true⟩ := by
  have hheader : afterHeader (compress content) =
      some (storedBlocks content ++ trailer content) := by
    simp [compress, emptyHeader, magic, afterHeader, flag]
  have htake : (trailer content).take 8 = trailer content :=
    List.take_of_length_le (Nat.le_of_eq (length_trailer content))
  simp [content?, hheader, inflate_storedBlocks, htake]

/-- Whatever has a content starts as a stream does. -/
theorem magic_isPrefixOf_of_content? {stream : List UInt8} {content : Content}
    (h : content? stream = some content) : magic.isPrefixOf stream = true := by
  obtain ⟨body, hbody, -⟩ := Option.bind_eq_some_iff.1 h
  unfold afterHeader at hbody
  split at hbody
  case h_1 => simp [magic, List.isPrefixOf]
  case h_2 => cases hbody

end Blueprint.Gzip
