import Blueprint.Batch.Job
import Blueprint.Proofs.Text.Split

/-!
# Where paths lead

A path is a text, and what it means is read off that text in several ways: its parts from the
front, its file name and the directory above from the end. They agree on paths of one form,
a *front* that leads to a directory and a last *piece* behind it (`Path.EndsIn`): this form says
what the parts are, which directory holds the path, and what becomes of it when the file name or
the extension is changed. Every path that is put together from a path and names is of this form.
-/

namespace Blueprint

namespace Path

/-! ## Pieces and parts -/

/-- A text between separators that stands for a part wherever it is. -/
structure IsPiece (s : String) : Prop where
  ne_empty : s ≠ ""
  ne_here : s ≠ "."
  slash : '/' ∉ s.toList

/-- A text that can be the name of an entry. -/
structure IsName (s : String) : Prop extends IsPiece s where
  ne_up : s ≠ ".."

instance (s : String) : Decidable (IsName s) :=
  decidable_of_iff ((s ≠ "" ∧ s ≠ "." ∧ '/' ∉ s.toList) ∧ s ≠ "..")
    ⟨fun h => ⟨⟨h.1.1, h.1.2.1, h.1.2.2⟩, h.2⟩,
      fun h => ⟨⟨h.ne_empty, h.ne_here, h.slash⟩, h.ne_up⟩⟩

/-- The part that a piece stands for. -/
def Part.ofPiece (s : String) : Part := if s = ".." then .up else .name s

/-- The piece that stands for a part. -/
def Part.piece : Part → String
  | .name s => s
  | .up => ".."
  | _ => ""

@[simp] theorem Part.piece_name (s : String) : (Part.name s).piece = s := rfl

@[simp] theorem Part.piece_ofPiece (s : String) : (Part.ofPiece s).piece = s := by
  unfold ofPiece
  split
  next h => exact h.symm
  next => rfl

/-- A piece stands for a part. -/
theorem IsPiece.partOf? {s : String} (h : IsPiece s) : partOf? s = some (Part.ofPiece s) := by
  rw [Path.partOf?, if_neg (not_or.2 ⟨h.ne_empty, h.ne_here⟩), Part.ofPiece]
  split <;> rfl

/-- A name stands for an entry. -/
theorem IsName.ofPiece {s : String} (h : IsName s) : Part.ofPiece s = .name s := if_neg h.ne_up

/-- The parts that pieces stand for if others follow. -/
def leading : List String → List Part
  | "" :: rest => .root :: rest.filterMap partOf?
  | "." :: rest => .here :: rest.filterMap partOf?
  | all => all.filterMap partOf?

/-- Pieces behind others stand for parts behind those of the others. -/
theorem leading_append {all : List String} (h : all ≠ []) (more : List String) :
    leading (all ++ more) = leading all ++ more.filterMap partOf? := by
  obtain ⟨first, rest, rfl⟩ := List.exists_cons_of_ne_nil h
  by_cases hroot : first = ""
  · simp [hroot, leading]
  · by_cases hhere : first = "."
    · simp [hhere, leading]
    · rw [List.cons_append, leading, leading, ← List.cons_append, List.filterMap_append]
      all_goals simp [hroot, hhere]

/-- The pieces of a text, with the text as a list of characters. -/
def piecesOf (cs : List Char) : List String := pieces (String.ofList cs)

/-- The pieces of a text are those of its characters. -/
theorem pieces_eq (s : String) : pieces s = piecesOf s.toList := by
  rw [piecesOf, String.ofList_toList]

/-- There is always a piece, if only an empty one. -/
theorem piecesOf_ne_nil (cs : List Char) : piecesOf cs ≠ [] := by
  simp [piecesOf, pieces, Text.splitAll_ne_nil]

/-- A separator ends a piece and starts another one. -/
theorem piecesOf_append (before after : List Char) :
    piecesOf (before ++ '/' :: after) = piecesOf before ++ piecesOf after := by
  simp [piecesOf, pieces, Text.splitAll_append]

/-- A piece has no others in it. -/
theorem IsPiece.piecesOf {s : String} (h : IsPiece s) : piecesOf s.toList = [s] := by
  simp [Path.piecesOf, pieces, Text.splitAll_of_notMem h.slash]

/-- A text that is not empty has more than an empty piece. -/
theorem piecesOf_ne_single {cs : List Char} (h : cs ≠ []) : piecesOf cs ≠ [""] := by
  obtain ⟨c, cs, rfl⟩ := List.exists_cons_of_ne_nil h
  by_cases hc : c = '/'
  · subst hc
    have hmore : piecesOf ('/' :: cs) = "" :: piecesOf cs := piecesOf_append [] cs
    simp [hmore, piecesOf_ne_nil]
  · simp only [piecesOf, pieces, String.toList_ofList, Text.splitAll, if_neg hc]
    split <;> simp

/-- The parts of a path are those that its pieces stand for. -/
theorem parts_eq_leading {p : Path} (h : p.text ≠ "") : p.parts = leading (pieces p.text) := by
  have hpieces : pieces p.text ≠ [""] := by
    rw [pieces_eq]
    exact piecesOf_ne_single (by simpa using h)
  unfold parts leading
  split <;> simp_all

/-- Only the first part of a path stands for a place of its own. -/
theorem tail_parts (p : Path) : ∀ part ∈ p.parts.tail, part ≠ .root ∧ part ≠ .here := by
  have hplain (all : List String) :
      ∀ part ∈ all.filterMap partOf?, part ≠ .root ∧ part ≠ .here := by
    intro part hpart
    obtain ⟨piece, -, hpiece⟩ := List.mem_filterMap.1 hpart
    unfold partOf? at hpiece
    split at hpiece
    · cases hpiece
    · split at hpiece <;> cases hpiece <;> simp
  unfold parts
  split
  · simp
  · exact hplain _
  · exact hplain _
  · exact fun part hpart => hplain _ part (List.mem_of_mem_tail hpart)

/-! ## Fronts -/

/-- A text to which a piece may be added leads to a directory with these parts. -/
inductive Leads : List Char → List Part → Prop where
  /-- nothing stands before the piece -/
  | start : Leads [] []
  /-- a separator does -/
  | slash (cs : List Char) : Leads (cs ++ ['/']) (leading (piecesOf cs))

variable {front : List Char} {dir : List Part}

/-- The parts of a front with a piece behind it. -/
theorem Leads.parts (h : Leads front dir) {s : String} (hs : IsPiece s) :
    leading (piecesOf (front ++ s.toList)) = dir ++ [Part.ofPiece s] := by
  cases h with
  | start =>
    have hsingle : leading [s] = [s].filterMap partOf? := by
      unfold leading
      split
      · exact absurd (List.cons.inj ‹_›).1 hs.ne_empty
      · exact absurd (List.cons.inj ‹_›).1 hs.ne_here
      · rfl
    simpa [hs.piecesOf, hs.partOf?] using hsingle
  | slash cs =>
    rw [List.append_assoc, List.singleton_append, piecesOf_append,
      leading_append (piecesOf_ne_nil cs), hs.piecesOf]
    simp [hs.partOf?]

/-- The name of an entry and a separator lead on to the entry. -/
theorem Leads.entry (h : Leads front dir) {n : String} (hn : IsName n) :
    Leads (front ++ n.toList ++ ['/']) (dir ++ [.name n]) := by
  have hslash := Leads.slash (front ++ n.toList)
  rwa [h.parts hn.toIsPiece, hn.ofPiece] at hslash

/-- Names behind a front lead to one directory after another. -/
theorem Leads.names (h : Leads front dir) {names : List String} (hnames : ∀ n ∈ names, IsName n)
    (last : String) : ∃ front', Leads front' (dir ++ names.map .name) ∧
      front ++ (ofNames (names ++ [last])).text.toList = front' ++ last.toList := by
  induction names generalizing front dir with
  | nil => exact ⟨front, by simpa using h, by simp [ofNames]⟩
  | cons n names ih =>
    obtain ⟨hn, hnames⟩ := List.forall_mem_cons.1 hnames
    obtain ⟨front', hfront, htext⟩ := ih (h.entry hn) hnames
    refine ⟨front', by simpa using hfront, ?_⟩
    rw [← htext]
    obtain ⟨second, rest, hrest⟩ := List.exists_cons_of_ne_nil
      (List.append_ne_nil_of_right_ne_nil names (List.cons_ne_nil last []))
    simp [ofNames, hrest, String.intercalate_cons_cons]

/-- The parts of a path are those that the pieces of its characters stand for. -/
theorem leading_of_text {p : Path} (h : p.text ≠ "") :
    leading (piecesOf p.text.toList) = p.parts := by
  rw [← pieces_eq, parts_eq_leading h]

/-- What is joined to a path stands behind a front that leads to it. -/
theorem exists_leads (p : Path) {q : Path} (hq : q.isAbsolute = false) :
    ∃ front, Leads front p.parts ∧ (p.join q).text.toList = front ++ q.text.toList := by
  unfold join
  rw [hq, if_neg Bool.false_ne_true]
  by_cases hempty : p.text = ""
  · rw [if_pos (.inl hempty)]
    have hparts : p.parts = [] := by rw [parts, hempty]; rfl
    exact ⟨[], hparts ▸ .start, by simp [hempty]⟩
  by_cases hslash : p.text.toList.getLast? = some '/'
  · rw [if_pos (.inr hslash)]
    obtain ⟨cs, hcs⟩ := List.getLast?_eq_some_iff.1 hslash
    have hparts : leading (piecesOf cs) = p.parts := by
      rw [← leading_of_text hempty, hcs, piecesOf_append, leading_append (piecesOf_ne_nil cs)]
      exact (List.append_nil _).symm
    exact ⟨cs ++ ['/'], hparts ▸ .slash cs, by simp [hcs]⟩
  · rw [if_neg (not_or.2 ⟨hempty, hslash⟩)]
    exact ⟨p.text.toList ++ ['/'], leading_of_text hempty ▸ .slash p.text.toList, by simp⟩

/-- What is idle behind a separator stands for no part. -/
theorem leading_slash (cs : List Char) {idle : List Char} (h : idle = [] ∨ idle = ['.']) :
    leading (piecesOf (cs ++ '/' :: idle)) = leading (piecesOf cs) := by
  rw [piecesOf_append, leading_append (piecesOf_ne_nil cs)]
  rcases h with rfl | rfl
  all_goals exact List.append_nil _

/-- What is dropped at the end of a text stands for no part. -/
theorem leading_dropIdle (cs : List Char) :
    leading (piecesOf (dropIdle cs).reverse) = leading (piecesOf cs.reverse) := by
  fun_induction dropIdle cs with
  | case1 rest ih => rw [ih, List.reverse_cons, leading_slash _ (.inl rfl)]
  | case2 rest ih =>
    rw [ih]
    simp only [List.reverse_cons, List.append_assoc, List.singleton_append]
    rw [leading_slash _ (.inl rfl), leading_slash _ (.inr rfl)]
  | case3 => rfl

/-! ## Paths with a last piece -/

/-- A path ends with a piece, and what stands before it leads to a directory with these
parts. -/
structure EndsIn (p : Path) (dir : List Part) (last : String) : Prop where
  /-- the piece stands for a part -/
  piece : IsPiece last
  /-- the text before it leads to the directory -/
  text : ∃ front, Leads front dir ∧ p.text.toList = front ++ last.toList

/-- No character of a piece is a separator. -/
theorem IsPiece.notMem {s : String} (h : IsPiece s) : ∀ c ∈ s.toList, c ≠ '/' :=
  fun _ hc heq => h.slash (heq ▸ hc)

/-- A piece has characters. -/
theorem IsPiece.toList_ne_nil {s : String} (h : IsPiece s) : s.toList ≠ [] := by
  simpa using h.ne_empty

/-- A path that starts with a piece does not start at the root. -/
theorem IsPiece.not_absolute {s : String} (h : IsPiece s) (more : String) :
    (⟨s ++ more⟩ : Path).isAbsolute = false := by
  obtain ⟨c, cs, hcs⟩ := List.exists_cons_of_ne_nil h.toList_ne_nil
  simpa [isAbsolute, hcs] using h.notMem c (hcs ▸ List.mem_cons_self)

/-- A piece at the end is no idle one. -/
theorem IsPiece.dropIdle {s : String} (h : IsPiece s) (more : List Char) :
    dropIdle (s.toList.reverse ++ more) = s.toList.reverse ++ more := by
  have hreverse : ∀ c ∈ s.toList.reverse, c ≠ '/' := by simpa using h.notMem
  match hs : s.toList.reverse with
  | [] => exact absurd (List.reverse_eq_nil_iff.1 hs) h.toList_ne_nil
  | c :: rest =>
    rw [hs] at hreverse
    obtain ⟨hc, hrest⟩ := List.forall_mem_cons.1 hreverse
    rw [List.cons_append]
    unfold Path.dropIdle
    split
    next heq => exact absurd (List.cons.inj heq).1 hc
    next heq =>
      obtain ⟨rfl, hmore⟩ := List.cons.inj heq
      cases rest with
      | nil => exact absurd (String.toList_inj.1 (List.reverse_eq_iff.1 hs)) h.ne_here
      | cons d rest => exact absurd (List.cons.inj hmore).1 (hrest d List.mem_cons_self)
    next => rfl

/-- Names and a last piece joined to a path. -/
theorem endsIn_join (p : Path) {names : List String} (hnames : ∀ n ∈ names, IsName n)
    {last : String} (hlast : IsPiece last) :
    (p.join (ofNames (names ++ [last]))).EndsIn (p.parts ++ names.map .name) last := by
  have habsolute : (ofNames (names ++ [last])).isAbsolute = false := by
    cases names with
    | nil => simpa [ofNames] using hlast.not_absolute ""
    | cons n names =>
      have hn := (hnames n List.mem_cons_self).toIsPiece
      obtain ⟨second, rest, hrest⟩ := List.exists_cons_of_ne_nil
        (List.append_ne_nil_of_right_ne_nil names (List.cons_ne_nil last []))
      simpa [ofNames, hrest, String.intercalate_cons_cons, String.append_assoc] using
        hn.not_absolute ("/" ++ "/".intercalate (second :: rest))
  obtain ⟨front, hfront, htext⟩ := p.exists_leads habsolute
  obtain ⟨front', hfront', htext'⟩ := hfront.names hnames last
  exact ⟨hlast, front', hfront', htext.trans htext'⟩

/-- The path of an entry ends in its name. -/
theorem endsIn_entry (p : Path) {last : String} (hlast : IsPiece last) :
    (p.entry last).EndsIn p.parts last := by
  simpa [ofNames, entry] using @endsIn_join p [] (fun _ h => nomatch h) last hlast

/-- A path of names ends in the last of them. -/
theorem endsIn_ofNames {names : List String} (hnames : ∀ n ∈ names, IsName n) {last : String}
    (hlast : IsPiece last) : (ofNames (names ++ [last])).EndsIn (names.map .name) last := by
  have hjoin := endsIn_join ⟨""⟩ hnames hlast
  have hempty : join ⟨""⟩ (ofNames (names ++ [last])) = ofNames (names ++ [last]) := by
    simp [join]
  rwa [hempty] at hjoin

section

variable {p : Path} {last : String} (h : p.EndsIn dir last)

include h

/-- The last piece of such a path is the one it ends in. -/
theorem EndsIn.exists_pieces : ∃ before, pieces p.text = before ++ [last] := by
  obtain ⟨hlast, front, hfront, htext⟩ := h
  rw [pieces_eq, htext]
  cases hfront with
  | start => exact ⟨[], by simp [hlast.piecesOf]⟩
  | slash cs =>
    exact ⟨piecesOf cs, by
      rw [List.append_assoc, List.singleton_append, piecesOf_append, hlast.piecesOf]⟩

/-- Such a path has a text. -/
theorem EndsIn.text_ne_empty : p.text ≠ "" := by
  obtain ⟨hlast, front, -, htext⟩ := h
  intro hempty
  rw [hempty] at htext
  exact hlast.toList_ne_nil (List.append_eq_nil_iff.1 htext.symm).2

/-- The parts of such a path are those of the directory and the last piece. -/
theorem EndsIn.parts_eq : p.parts = dir ++ [Part.ofPiece last] := by
  have htext := leading_of_text h.text_ne_empty
  obtain ⟨hlast, front, hfront, hp⟩ := h
  rw [← htext, hp, hfront.parts hlast]

/-- It does not ask for a directory, since no separator and no dot is at its end. -/
theorem EndsIn.asksForDir_eq : p.asksForDir = false := by
  obtain ⟨before, hbefore⟩ := h.exists_pieces
  rw [asksForDir, hbefore, List.reverse_append, List.reverse_singleton, List.singleton_append]
  cases before.reverse with
  | nil => rfl
  | cons piece rest => simp [h.piece.ne_empty, h.piece.ne_here]

/-- It does not end in a dot. -/
theorem EndsIn.endsInHere_eq : p.endsInHere = false := by
  obtain ⟨before, hbefore⟩ := h.exists_pieces
  rw [endsInHere, hbefore, List.reverse_append, List.reverse_singleton, List.singleton_append,
    List.dropWhile_cons_of_neg (by simpa using h.piece.ne_empty)]
  simpa using h.piece.ne_here

end

/-- What is left when idle pieces are dropped ends with a piece or is the part `.` alone. -/
theorem not_idle {cs rest : List Char} {c : Char} (h : dropIdle cs = c :: rest) :
    c ≠ '/' ∧ (c = '.' → rest.head? ≠ some '/') := by
  fun_induction dropIdle cs with
  | case1 rest ih => exact ih h
  | case2 rest ih => exact ih h
  | case3 cs hslash hdot =>
    subst h
    refine ⟨fun hc => hslash rest (by rw [hc]), fun hc hhead => ?_⟩
    obtain ⟨more, rfl⟩ := List.head?_eq_some_iff.1 hhead
    exact hdot more (by rw [hc])

/-- What the last separator of a text leaves behind it is a front. -/
theorem exists_leads_dropWhile (cs : List Char) :
    ∃ dir, Leads (cs.dropWhile (· != '/')).reverse dir := by
  have hhead := List.head?_dropWhile_not (· != '/') cs
  cases htail : cs.dropWhile (· != '/') with
  | nil => exact ⟨[], .start⟩
  | cons d tail =>
    rw [htail] at hhead
    obtain rfl : d = '/' := by simpa using hhead
    exact ⟨_, by simpa using Leads.slash tail.reverse⟩

/-- It is the part `.` alone, or a path that ends with a piece. -/
theorem endsIn_of_dropIdle {cs rest : List Char} {c : Char} (h : dropIdle cs = c :: rest) :
    String.ofList (c :: rest).reverse = "." ∨
      ∃ dir last, EndsIn ⟨String.ofList (c :: rest).reverse⟩ dir last := by
  obtain ⟨hc, hdot⟩ := not_idle h
  refine or_iff_not_imp_left.2 fun htext => ?_
  obtain ⟨dir, hfront⟩ := exists_leads_dropWhile (c :: rest)
  have hcut : (c :: rest).takeWhile (· != '/') = c :: rest.takeWhile (· != '/') := by simp [hc]
  refine ⟨dir, String.ofList ((c :: rest).takeWhile (· != '/')).reverse, ?_, _, hfront, ?_⟩
  · refine ⟨by simp [hcut], fun hhere => htext ?_, fun hslash => ?_⟩
    · rw [← String.toList_inj, String.toList_ofList, hcut, List.reverse_eq_iff] at hhere
      obtain ⟨rfl, hrest⟩ := List.cons.inj hhere
      cases rest with
      | nil => rfl
      | cons d rest =>
        have hd : d ≠ '/' := by simpa using hdot rfl
        simp [hd] at hrest
    · rw [String.toList_ofList, List.mem_reverse] at hslash
      simpa using List.all_eq_true.1 List.all_takeWhile _ hslash
  · simp [← List.reverse_append]

/-- A path that ends in a dot with nothing idle behind it is that dot. -/
theorem text_of_endsInHere {cs rest : List Char} {c : Char} (h : dropIdle cs = c :: rest)
    (hhere : (⟨String.ofList (c :: rest).reverse⟩ : Path).endsInHere = true) :
    String.ofList (c :: rest).reverse = "." := by
  rcases endsIn_of_dropIdle h with htext | ⟨dir, last, hends⟩
  · exact htext
  · rw [hends.endsInHere_eq] at hhere
    cases hhere

section

variable {p : Path} {last : String} (h : p.EndsIn dir last)

include h

/-- Nothing at the end of such a path is dropped. -/
theorem EndsIn.body_eq : p.body = p.text.toList.reverse := by
  obtain ⟨hlast, front, hfront, htext⟩ := h
  rw [body, htext, List.reverse_append, hlast.dropIdle]

/-- Such a path is cut in front of its last piece. -/
theorem EndsIn.cut_body : p.body.takeWhile (· != '/') = last.toList.reverse ∧
    ∃ front, Leads front dir ∧ p.text.toList = front ++ last.toList ∧
      p.beforeLast = front.reverse := by
  have hbody := h.body_eq
  obtain ⟨hlast, front, hfront, htext⟩ := h
  have hpiece : ∀ c ∈ last.toList.reverse, (c != '/') = true := by simpa using hlast.notMem
  rw [htext, List.reverse_append] at hbody
  rw [beforeLast, hbody, List.takeWhile_append_of_pos hpiece, List.dropWhile_append_of_pos hpiece]
  refine ⟨?_, front, hfront, htext, ?_⟩
  · cases hfront with
    | start => simp
    | slash cs => simp
  · cases hfront with
    | start => rfl
    | slash cs => simp

/-- The last piece is what it ends in. -/
theorem EndsIn.lastPiece_eq : p.lastPiece = last := by
  rw [lastPiece, h.cut_body.1, List.reverse_reverse, String.ofList_toList]

/-- The directory of such a path leads to its parts. Its path ends with `.` only if it is that
part. -/
theorem EndsIn.exists_parent : ∃ parent, p.parent? = some parent ∧ parent.parts = dir ∧
    (parent.endsInHere = true → parent.text = ".") := by
  obtain ⟨front, hfront, htext, hbefore⟩ := h.cut_body.2
  rw [parent?, h.lastPiece_eq, if_neg h.piece.ne_empty, hbefore]
  cases hfront with
  | start => exact ⟨⟨""⟩, rfl, rfl, fun h => by cases h⟩
  | slash cs =>
    have hparts := leading_dropIdle ('/' :: cs.reverse)
    rw [List.reverse_cons, List.reverse_reverse, leading_slash cs (.inl rfl)] at hparts
    rw [List.reverse_append, List.reverse_singleton, List.singleton_append]
    cases hrest : dropIdle ('/' :: cs.reverse) with
    | nil =>
      rw [hrest] at hparts
      exact ⟨⟨"/"⟩, rfl, hparts, fun h => by cases h⟩
    | cons c rest =>
      rw [hrest] at hparts
      refine ⟨⟨String.ofList (c :: rest).reverse⟩, rfl, ?_, fun hhere => ?_⟩
      · rw [← leading_of_text, String.toList_ofList, hparts]
        simp
      · exact text_of_endsInHere hrest hhere

end

/-! ## What is left without the idle end -/

/-- A path without what stands for no part at its end. -/
def trimmed (p : Path) : Path := ⟨String.ofList p.body.reverse⟩

variable {p : Path}

/-- A path with a body has a text. -/
theorem text_ne_empty_of_body (h : p.body ≠ []) : p.text ≠ "" := by
  intro hempty
  exact h (by simp [body, hempty, dropIdle])

/-- What is idle at the end of a path stands for none of its parts. -/
theorem parts_trimmed (h : p.body ≠ []) : p.trimmed.parts = p.parts := by
  rw [trimmed, ← leading_of_text (by simpa using h), String.toList_ofList, body, leading_dropIdle,
    List.reverse_reverse, leading_of_text (text_ne_empty_of_body h)]

/-- What is left is the part `.` alone, or a path that ends with a piece. -/
theorem endsIn_trimmed (h : p.body ≠ []) :
    p.trimmed.text = "." ∨ ∃ dir last, p.trimmed.EndsIn dir last := by
  obtain ⟨c, rest, hbody⟩ := List.exists_cons_of_ne_nil h
  rw [trimmed, hbody]
  exact endsIn_of_dropIdle hbody

/-- A path without its idle end has the same body. -/
theorem body_trimmed {last : String} (h : p.trimmed.EndsIn dir last) : p.trimmed.body = p.body := by
  rw [h.body_eq, trimmed, String.toList_ofList, List.reverse_reverse]

/-- A path is taken apart at the end of its body. -/
theorem parent?_congr {q : Path} (h : p.body = q.body) : p.parent? = q.parent? := by
  rw [parent?, parent?, lastPiece, lastPiece, beforeLast, beforeLast, h]

/-- The name of a file is in the body of its path. -/
theorem fileName?_congr {q : Path} (h : p.body = q.body) : p.fileName? = q.fileName? := by
  rw [fileName?, fileName?, lastPiece, lastPiece, h]

/-- The directory of any path has all of its parts but the last one. -/
theorem parts_of_parent {parent : Path} (h : p.parent? = some parent) :
    parent.parts = p.parts.dropLast := by
  have hbody : p.body ≠ [] := fun hnil => by simp [parent?, lastPiece, hnil] at h
  rcases endsIn_trimmed hbody with hhere | ⟨dir, last, hends⟩
  · have hdot : p.body = ['.'] := by
      rwa [trimmed, ← String.toList_inj, String.toList_ofList, List.reverse_eq_iff] at hhere
    have hempty : p.parent? = some ⟨""⟩ := by
      simp [parent?, lastPiece, beforeLast, hdot, dropIdle]
    obtain rfl := Option.some.inj (hempty.symm.trans h)
    rw [← parts_trimmed hbody, show p.trimmed = ⟨"."⟩ from congrArg mk hhere]
    rfl
  · obtain ⟨parent', hparent', hdir, -⟩ := hends.exists_parent
    rw [parent?_congr (body_trimmed hends), h] at hparent'
    obtain rfl := Option.some.inj hparent'
    rw [← parts_trimmed hbody, hends.parts_eq, List.dropLast_concat, hdir]

/-! ## Other names -/

section

variable {p : Path} {name : String} (h : p.EndsIn dir name) (hname : IsName name)

include h

/-- What a piece is made longer by. -/
theorem EndsIn.longer {p' : Path} {more : String} (htext : p'.text = p.text ++ more)
    (hpiece : IsPiece (name ++ more)) : p'.EndsIn dir (name ++ more) := by
  obtain ⟨-, front, hfront, hp⟩ := h
  exact ⟨hpiece, front, hfront, by simp [htext, hp]⟩

include hname

/-- A path that ends in a name is that of a file with this name. -/
theorem EndsIn.fileName_eq : p.fileName? = some name := by
  rw [fileName?, h.lastPiece_eq, if_neg]
  simp [hname.ne_empty, hname.ne_here, hname.ne_up]

/-- Its stem is that of the name. -/
theorem EndsIn.stem_eq : p.stem? = some (splitName name).1 := by
  rw [stem?, h.fileName_eq hname, Option.map_some]

/-- So is its extension. -/
theorem EndsIn.extension_eq : p.extension? = (splitName name).2 := by
  rw [extension?, h.fileName_eq hname, Option.bind_some]

/-- A path with another file name stays in its directory. -/
theorem EndsIn.withFileName {new : String} (hnew : IsPiece new) :
    (p.withFileName new).EndsIn dir new := by
  obtain ⟨parent, hparent, rfl, -⟩ := h.exists_parent
  rw [Path.withFileName, h.fileName_eq hname, hparent]
  exact endsIn_entry parent hnew

/-- So does a path with another extension; two points are its piece if the name is `.` before
the extension. -/
theorem EndsIn.withExtension {extension : String}
    (hnew : IsPiece ((splitName name).1 ++ "." ++ extension)) :
    (p.withExtension extension).EndsIn dir
      (if (splitName name).1 = "." then ".." else (splitName name).1 ++ "." ++ extension) := by
  obtain ⟨front, hfront, htext, hbefore⟩ := h.cut_body.2
  rw [Path.withExtension, h.fileName_eq hname]
  dsimp only
  rw [hbefore, List.reverse_reverse]
  by_cases hstem : (splitName name).1 = "."
  · rw [if_pos ⟨hstem, h.body_eq⟩, if_pos hstem]
    exact ⟨⟨by decide, by decide, by decide⟩, front, hfront, by simp⟩
  · rw [if_neg (fun hboth => hstem hboth.1), if_neg hstem]
    exact ⟨hnew, front, hfront, by simp⟩

end

/-! ## Paths to a name

A path whose last part is a name is one that ends with this name, if idle pieces behind it are not
counted, and it is taken apart at that name. -/

/-- Only the first part of a path can be other than an entry of a directory. -/
theorem parts_eq_filterMap (hplain : ∀ part ∈ p.parts, part ≠ .root ∧ part ≠ .here) :
    p.parts = (pieces p.text).filterMap partOf? := by
  unfold parts at hplain ⊢
  split at hplain
  next h => rw [h]; rfl
  next => exact absurd rfl (hplain _ List.mem_cons_self).1
  next => exact absurd rfl (hplain _ List.mem_cons_self).2
  next => rfl

/-- A path that starts with an entry of a directory is looked up in the one it is joined to. -/
theorem parts_join (q : Path) (hplain : ∀ part ∈ p.parts, part ≠ .root ∧ part ≠ .here) :
    (q.join p).parts = q.parts ++ p.parts := by
  have hrelative : p.isAbsolute = false := by
    refine Bool.eq_false_iff.2 fun habsolute => ?_
    obtain ⟨cs, hcs⟩ := List.head?_eq_some_iff.1 (beq_iff_eq.1 habsolute)
    have htext : p.text ≠ "" := fun hempty => by simp [hempty] at hcs
    rw [← leading_of_text htext, hcs, ← List.nil_append ('/' :: cs), piecesOf_append] at hplain
    exact (hplain .root List.mem_cons_self).1 rfl
  obtain ⟨front, hfront, htext⟩ := q.exists_leads hrelative
  generalize q.parts = dir at hfront ⊢
  cases hfront with
  | start =>
    rw [List.nil_append] at htext ⊢
    rw [show q.join p = p from congrArg mk (String.toList_inj.1 htext)]
  | slash cs =>
    have hne : (q.join p).text ≠ "" := fun hempty => by simp [hempty] at htext
    rw [← leading_of_text hne, htext, List.append_assoc, List.singleton_append, piecesOf_append,
      leading_append (piecesOf_ne_nil cs), ← pieces_eq, ← parts_eq_filterMap hplain]

/-- The path of a file has parts. -/
theorem parts_ne_nil_of_fileName {name : String} (h : p.fileName? = some name) : p.parts ≠ [] := by
  have hbody : p.body ≠ [] := fun hnil => by simp [fileName?, lastPiece, hnil] at h
  rw [← parts_trimmed hbody]
  rcases endsIn_trimmed hbody with hhere | ⟨dir, last, hends⟩
  · rw [show p.trimmed = ⟨"."⟩ from congrArg mk hhere]
    exact List.cons_ne_nil _ _
  · simp [hends.parts_eq]

section

variable {name : String} (h : p.parts = dir ++ [.name name])

include h

/-- A path whose last part is a name has a body. -/
theorem body_ne_nil_of_parts : p.body ≠ [] := by
  intro hnil
  have htext : p.text ≠ "" := by
    intro hempty
    rw [parts, hempty] at h
    simp [pieces, Text.splitAll] at h
  have hparts := leading_dropIdle p.text.toList.reverse
  rw [← body, hnil, List.reverse_reverse, leading_of_text htext, h] at hparts
  have hlast : [Part.root].getLast? = some (.name name) := by
    rw [show [Part.root] = dir ++ [.name name] from hparts, List.getLast?_concat]
  cases hlast

/-- It ends in this name, but for what is idle. -/
theorem endsIn_of_parts : p.trimmed.EndsIn dir name ∧ IsName name := by
  have hbody := body_ne_nil_of_parts h
  have hparts := (parts_trimmed hbody).trans h
  rcases endsIn_trimmed hbody with hhere | ⟨dir', last, hends⟩
  · rw [show p.trimmed = ⟨"."⟩ from congrArg mk hhere] at hparts
    have hlast : [Part.here].getLast? = some (.name name) := by
      rw [show [Part.here] = dir ++ [.name name] from hparts, List.getLast?_concat]
    cases hlast
  · rw [hends.parts_eq] at hparts
    obtain ⟨rfl, hlast⟩ := List.append_inj' hparts rfl
    have hpiece := (List.cons.inj hlast).1
    have hup : last ≠ ".." := fun hup => by simp [hup, Part.ofPiece] at hpiece
    rw [Part.ofPiece, if_neg hup] at hpiece
    obtain rfl := Part.name.inj hpiece
    exact ⟨hends, hends.piece, hup⟩

/-- The name is that of the file. -/
theorem fileName?_of_parts : p.fileName? = some name := by
  obtain ⟨hends, hname⟩ := endsIn_of_parts h
  rw [← fileName?_congr (body_trimmed hends), hends.fileName_eq hname]

/-- The stem is that of the name. -/
theorem stem?_of_parts : p.stem? = some (splitName name).1 := by
  rw [stem?, fileName?_of_parts h, Option.map_some]

/-- So is the extension. -/
theorem extension?_of_parts : p.extension? = (splitName name).2 := by
  rw [extension?, fileName?_of_parts h, Option.bind_some]

/-- The directory has the parts in front of the name. -/
theorem exists_parent_of_parts : ∃ parent, p.parent? = some parent ∧ parent.parts = dir := by
  obtain ⟨hends, -⟩ := endsIn_of_parts h
  obtain ⟨parent, hparent, hdir, -⟩ := hends.exists_parent
  exact ⟨parent, (parent?_congr (body_trimmed hends)).symm.trans hparent, hdir⟩

/-- Another name takes the place of the name. -/
theorem parts_withFileName {new : String} (hnew : IsPiece new) :
    (p.withFileName new).parts = dir ++ [.ofPiece new] := by
  obtain ⟨parent, hparent, rfl⟩ := exists_parent_of_parts h
  rw [withFileName, fileName?_of_parts h, hparent]
  exact (endsIn_entry parent hnew).parts_eq

/-- Another extension is the end of another name, or two points are left of it. -/
theorem parts_withExtension {extension : String}
    (hnew : IsPiece ((splitName name).1 ++ "." ++ extension)) :
    ∃ new, (p.withExtension extension).parts = dir ++ [.ofPiece new] ∧
      (new = (splitName name).1 ++ "." ++ extension ∨ new = ".." ∧ (splitName name).1 = ".") := by
  obtain ⟨hends, -⟩ := endsIn_of_parts h
  obtain ⟨front, hfront, -, hbefore⟩ := hends.cut_body.2
  rw [beforeLast, body_trimmed hends, ← beforeLast] at hbefore
  rw [withExtension, fileName?_of_parts h]
  dsimp only
  rw [hbefore, List.reverse_reverse]
  split
  next hstem =>
    have hup : IsPiece ".." := ⟨by decide, by decide, by decide⟩
    exact ⟨"..", EndsIn.parts_eq ⟨hup, front, hfront, by simp⟩, .inr ⟨rfl, hstem.1⟩⟩
  next => exact ⟨_, EndsIn.parts_eq ⟨hnew, front, hfront, by simp⟩, .inl rfl⟩

end

/-- A name begins with its stem. -/
theorem prefix_of_splitName (name : String) : (splitName name).1.toList <+: name.toList := by
  dsimp only [splitName]
  split
  next point c rest hstem =>
    have hsuffix : (c :: rest) <:+ name.toList.reverse :=
      (List.suffix_cons point (c :: rest)).trans (hstem ▸ List.dropWhile_suffix _)
    rwa [String.toList_ofList, ← List.reverse_suffix, List.reverse_reverse]
  next => exact List.prefix_refl _

/-- The stem of a name is not empty and has no separator in it. -/
theorem IsName.stem {name : String} (h : IsName name) :
    (splitName name).1 ≠ "" ∧ '/' ∉ (splitName name).1.toList := by
  refine ⟨?_, fun hslash => h.slash ((prefix_of_splitName name).subset hslash)⟩
  dsimp only [splitName]
  split
  next => simp
  next => exact h.ne_empty

/-- A name with an extension is its stem and the extension, with a point in between. -/
theorem eq_of_splitName {name extension : String} (h : (splitName name).2 = some extension) :
    name = (splitName name).1 ++ "." ++ extension := by
  dsimp only [splitName] at h ⊢
  split at h
  next point c rest hstem =>
    have hpoint : point = '.' := by
      have hhead := List.head?_dropWhile_not (· != '.') name.toList.reverse
      rw [hstem] at hhead
      simpa using hhead
    have hall := List.takeWhile_append_dropWhile (p := (· != '.')) (l := name.toList.reverse)
    rw [hstem, hpoint, ← List.reverse_inj, List.reverse_reverse] at hall
    obtain rfl := Option.some.inj h
    refine String.toList_inj.1 (hall.symm.trans ?_)
    simp
  next => cases h

/-- Two texts together are a piece, since they are longer than a point. -/
theorem isPiece_append {s more : String} (hs : s ≠ "") (hmore : more ≠ "")
    (hslash : '/' ∉ s.toList) (hslash' : '/' ∉ more.toList) : IsPiece (s ++ more) where
  ne_empty := by simp [hs]
  ne_here heq := by
    have hlength : s.length + more.length = 1 := by
      rw [← String.length_append, heq]
      rfl
    have hs : s.length ≠ 0 := by simpa using hs
    have hmore : more.length ≠ 0 := by simpa using hmore
    omega
  slash := by simp [hslash, hslash']

/-- What is longer than a text is not that text. -/
theorem append_ne (s : String) {more short : String} (h : short.length < more.length) :
    s ++ more ≠ short := by
  intro heq
  have hlength := congrArg String.length heq
  rw [String.length_append] at hlength
  omega

end Path

end Blueprint
