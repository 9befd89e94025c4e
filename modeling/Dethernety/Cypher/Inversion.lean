import Dethernety.Cypher.Agreement

/-!
# Joining and splitting

`ParseStatements` undoes joining: statements that are each followed by a semicolon and a newline, with comments and
blanks between them, are what it returns (`parse_script`).
-/

open List CharCode

namespace Cypher

abbrev byte (c : Char) : UInt8 :=
  utf8.unit c

/-- The string literals are closed, and outside of them is no backslash, semicolon or comment; `quote` opened the
literal that the text starts in. -/
def isClosedText : Option UInt8 → List UInt8 → Bool
  | quote, [] => quote.isNone
  | none, ch :: rest =>
    if ch = byte '\'' ∨ ch = byte '"' then isClosedText (some ch) rest
    else ch ≠ byte '\\' ∧ ch ≠ byte ';' ∧
      ¬ (ch = byte '/' ∧ (rest.head? = some (byte '/') ∨ rest.head? = some (byte '*'))) ∧ isClosedText none rest
  | some quote, ch :: rest =>
    if ch = byte '\\' then
      match rest with
      | [] => false
      | _ :: rest => isClosedText (some quote) rest
    else isClosedText (if ch = quote then none else some quote) rest

structure Statement (st : List UInt8) : Prop where
  closed : isClosedText none st = true
  trimmed : trimSpace st = st
  ne_nil : st ≠ []

/-- What may stand between two statements. -/
inductive Filler
  | line (body : List UInt8)
  | block (body : List UInt8)
  | blank (ch : UInt8)

def Filler.text : Filler → List UInt8
  | line body => byte '/' :: byte '/' :: body ++ [byte '\n']
  | block body => byte '/' :: byte '*' :: body ++ [byte '*', byte '/']
  | blank ch => [ch]

/-- Tab, newline, carriage return and space. -/
def blanks : List UInt8 :=
  [9, 10, 13, 32]

/-- A comment ends where it says. -/
def Filler.Ends : Filler → Prop
  | line body => byte '\n' ∉ body
  | block body => ¬ [byte '*', byte '/'] <:+: body
  | blank ch => ch ∈ blanks

/-- Each statement after its fillers, with a semicolon and a newline after it. -/
def script : List (List Filler × List UInt8) → List Filler → List UInt8
  | [], ending => ending.flatMap Filler.text
  | (fillers, st) :: parts, ending =>
    fillers.flatMap Filler.text ++ (st ++ byte ';' :: byte '\n' :: script parts ending)

/-! ### Trimming -/

variable {white : List (List UInt8)} {s ws st : List UInt8}

lemma trimLeft_suffix (white : List (List UInt8)) (fuel : ℕ) (s : List UInt8) : trimLeft white fuel s <:+ s := by
  induction fuel generalizing s with
  | zero => exact suffix_rfl
  | succ fuel ih =>
    rw [trimLeft]
    split
    · exact (ih _).trans (drop_suffix ..)
    · exact suffix_rfl

lemma trimRight_isPrefixOf (white : List (List UInt8)) (fuel : ℕ) (s : List UInt8) : trimRight white fuel s <+: s := by
  induction fuel generalizing s with
  | zero => exact prefix_rfl
  | succ fuel ih =>
    rw [trimRight]
    split
    · exact (ih _).trans (List.take_prefix ..)
    · exact prefix_rfl

lemma find?_blank {ch : UInt8} (h : ch ∈ blanks) (s : List UInt8) :
    (goSpace.map utf8.word).find? (fun w => w.isPrefixOf (ch :: s)) = some [ch] := by
  simp only [blanks, mem_cons, not_mem_nil, or_false] at h
  rcases h with rfl | rfl | rfl | rfl <;> rfl

lemma trimLeft_blanks (hws : ∀ ch ∈ ws, ch ∈ blanks) (n : ℕ) :
    trimLeft (goSpace.map utf8.word) (ws.length + n) (ws ++ s) =
      trimLeft (goSpace.map utf8.word) n s := by
  induction ws with
  | nil => simp
  | cons ch ws ih =>
    rw [length_cons, Nat.add_right_comm, cons_append, trimLeft, find?_blank (hws ch (.head _))]
    exact ih fun c hc => hws c (.tail _ hc)

lemma word_ne_nil {w : List UInt8} (hw : w ∈ goSpace.map utf8.word) : w ≠ [] := by
  obtain ⟨c, -, rfl⟩ := mem_map.1 hw
  exact utf8.word_ne_nil c

/-- A text that trimming leaves alone has no white space at its end, whatever the fuel is. -/
lemma trimRight_eq_self {n : ℕ} (h : trimRight (goSpace.map utf8.word) (n + 1) s = s) (m : ℕ) :
    trimRight (goSpace.map utf8.word) m s = s := by
  cases m with
  | zero => rfl
  | succ m =>
    rw [trimRight] at h ⊢
    split at h
    · rename_i w hw
      have hsuffix := isSuffixOf_iff_suffix.1 (find?_some (p := fun w : List UInt8 => w.isSuffixOf s) hw)
      have hle := (trimRight_isPrefixOf (goSpace.map utf8.word) n (s.take (s.length - w.length))).length_le
      have hpos := length_pos_of_ne_nil (word_ne_nil (mem_of_find?_eq_some hw))
      have := hsuffix.length_le
      rw [h, length_take] at hle
      omega
    · rfl

lemma trimSpace_blanks (hws : ∀ ch ∈ ws, ch ∈ blanks) : trimSpace ws = [] := by
  have hleft := trimLeft_blanks (s := []) hws 0
  rw [append_nil, Nat.add_zero] at hleft
  unfold trimSpace trimWords
  rw [hleft]
  exact prefix_nil.1 (trimRight_isPrefixOf ..)

lemma Statement.trimSpace_append (h : Statement st) (hws : ∀ ch ∈ ws, ch ∈ blanks) : trimSpace (ws ++ st) = st := by
  obtain ⟨n, hn⟩ := Nat.exists_eq_succ_of_ne_zero (length_pos_of_ne_nil h.ne_nil).ne'
  have htrimmed := h.trimmed
  unfold trimSpace trimWords at htrimmed ⊢
  have hleft : trimLeft (goSpace.map utf8.word) st.length st = st := by
    apply (trimLeft_suffix ..).eq_of_length_le
    conv_lhs => rw [← htrimmed]
    exact (trimRight_isPrefixOf ..).length_le
  rw [length_append, trimLeft_blanks hws, hleft]
  rw [hleft, hn] at htrimmed
  exact trimRight_eq_self htrimmed _

/-! ### Scanning -/

abbrev goScan (s : Scan UInt8) (text : List UInt8) : Scan UInt8 :=
  scan utf8.unit (fun current => keep (trimSpace current)) s text

/-- A scan outside of comments, in the literal that `quote` opened, after one that `last` opened. -/
def reading (done : List (List UInt8)) (current : List UInt8) (quote last : Option UInt8) : Scan UInt8 where
  statements := done
  current := current
  inString := quote.isSome
  stringChar := quote.or last

variable {done : List (List UInt8)} {rest : List UInt8}

lemma units : byte '/' = 47 ∧ byte '*' = 42 ∧ byte '\n' = 10 ∧ byte '\\' = 92 ∧ byte '\'' = 39 ∧ byte '"' = 34 ∧
    byte ';' = 59 :=
  ⟨rfl, rfl, rfl, rfl, rfl, rfl, rfl⟩

lemma goScan_closed {quote : Option UInt8} {text : List UInt8} (h : isClosedText quote text = true)
    (current : List UInt8) (last : Option UInt8) :
    ∃ last', goScan (reading done current quote last) (text ++ byte ';' :: rest) =
      goScan (reading done (current ++ text) none last') (byte ';' :: rest) := by
  induction quote, text using isClosedText.induct generalizing current last with
  | case1 quote =>
    simp only [isClosedText, Option.isNone_iff_eq_none] at h
    exact ⟨last, by rw [h, append_nil, nil_append]⟩
  | case2 ch text hquote ih =>
    rw [isClosedText, if_pos hquote] at h
    obtain ⟨last', hscan⟩ := ih h (current ++ [ch]) last
    rw [append_assoc] at hscan
    refine ⟨last', (scan_cons_one ?_).trans hscan⟩
    rcases hquote with rfl | rfl <;> simp [step, reading, units]
  | case3 ch text hquote ih =>
    rw [isClosedText, if_neg hquote] at h
    obtain ⟨hescape, hend, hcomment, h⟩ := of_decide_eq_true h
    obtain ⟨last', hscan⟩ := ih h (current ++ [ch]) last
    rw [append_assoc] at hscan
    refine ⟨last', (scan_cons_one ?_).trans hscan⟩
    -- the semicolon after the text makes no comment of a slash at its end
    have hnext : ¬ (ch = byte '/' ∧ ((text ++ byte ';' :: rest).head? = some (byte '/') ∨
        (text ++ byte ';' :: rest).head? = some (byte '*'))) := by
      cases text with
      | nil => exact fun hslash => by simp [units] at hslash
      | cons c text => exact hcomment
    generalize (text ++ byte ';' :: rest).head? = next at hnext ⊢
    obtain ⟨hsingle, hdouble⟩ := not_or.1 hquote
    by_cases hslash : ch = byte '/'
    · obtain ⟨hslashes, hstar⟩ := not_or.1 (not_and.1 hnext hslash)
      simp [step, reading, hescape, hend, hsingle, hdouble, hslashes, hstar]
    · simp [step, reading, hescape, hend, hsingle, hdouble, hslash]
  | case4 quote => simp [isClosedText] at h
  | case5 _ c _ ih =>
    obtain ⟨last', hscan⟩ := ih h (current ++ [byte '\\', c]) last
    rw [append_assoc] at hscan
    exact ⟨last', (scan_cons_two (by simp [step, reading, units])).trans hscan⟩
  | case6 quote ch text hescape ih =>
    unfold isClosedText at h
    rw [if_neg hescape] at h
    by_cases hclose : ch = quote
    · rw [if_pos hclose] at h ih
      obtain ⟨last', hscan⟩ := ih h (current ++ [ch]) (some quote)
      rw [append_assoc] at hscan
      subst hclose
      exact ⟨last', (scan_cons_one (by simp [step, reading, hescape])).trans hscan⟩
    · rw [if_neg hclose] at h ih
      obtain ⟨last', hscan⟩ := ih h (current ++ [ch]) last
      rw [append_assoc] at hscan
      exact ⟨last', (scan_cons_one (by simp [step, reading, hescape, hclose])).trans hscan⟩

variable {body current : List UInt8} {last : Option UInt8}

lemma goScan_blank {ch : UInt8} (hch : ch ∈ blanks) :
    goScan (reading done current none last) (ch :: rest) = goScan (reading done (current ++ [ch]) none last) rest := by
  simp only [blanks, mem_cons, not_mem_nil, or_false] at hch
  apply scan_cons_one
  rcases hch with rfl | rfl | rfl | rfl <;> simp [step, reading, units]

lemma goScan_line (hbody : byte '\n' ∉ body) :
    goScan { reading done current none last with inLineComment := true } (body ++ byte '\n' :: rest) =
      goScan (reading done (current ++ [byte '\n']) none last) rest := by
  induction body with
  | nil => exact scan_cons_one (by simp [step, reading])
  | cons _ _ ih =>
    obtain ⟨hch, hbody⟩ := not_or.1 (mt mem_cons.2 hbody)
    exact (scan_cons_one (by simp [step, reading, Ne.symm hch])).trans (ih hbody)

lemma goScan_block (hbody : ¬ [byte '*', byte '/'] <:+: body) :
    goScan { reading done current none last with inBlockComment := true } (body ++ byte '*' :: byte '/' :: rest) =
      goScan (reading done current none last) rest := by
  induction body with
  | nil => exact scan_cons_two (by simp [step, reading])
  | cons ch body ih =>
    have hnext : ch = byte '*' → (body ++ byte '*' :: byte '/' :: rest).head? ≠ some (byte '/') := by
      rintro rfl hslash
      cases body with
      | nil => cases hslash
      | cons c body =>
        cases hslash
        exact hbody ⟨[], body, rfl⟩
    refine (scan_cons_one ?_).trans (ih fun h => hbody (h.trans (suffix_cons ..).isInfix))
    generalize (body ++ byte '*' :: byte '/' :: rest).head? = next at hnext
    by_cases hstar : ch = byte '*'
    · simp [step, reading, hstar, hnext hstar]
    · simp [step, reading, hstar]

/-- Fillers leave nothing but blanks. -/
lemma goScan_fillers {fillers : List Filler} (hends : ∀ filler ∈ fillers, filler.Ends)
    (hcurrent : ∀ ch ∈ current, ch ∈ blanks) (done : List (List UInt8)) (last : Option UInt8) (rest : List UInt8) :
    ∃ ws, (∀ ch ∈ ws, ch ∈ blanks) ∧
      goScan (reading done current none last) (fillers.flatMap Filler.text ++ rest) =
        goScan (reading done ws none last) rest := by
  induction fillers generalizing current with
  | nil => exact ⟨current, hcurrent, rfl⟩
  | cons filler fillers ih =>
    have hstep : ∃ ws, (∀ ch ∈ ws, ch ∈ blanks) ∧ ∀ rest,
        goScan (reading done current none last) (filler.text ++ rest) = goScan (reading done ws none last) rest := by
      have hconcat {ch : UInt8} (hch : ch ∈ blanks) : ∀ c ∈ current ++ [ch], c ∈ blanks := fun c hc =>
        (mem_append.1 hc).elim (hcurrent c) fun hc => mem_singleton.1 hc ▸ hch
      have hfirst := hends filler (.head _)
      cases filler with
      | blank ch => exact ⟨_, hconcat hfirst, fun rest => goScan_blank hfirst⟩
      | line body =>
        refine ⟨_, hconcat (show byte '\n' ∈ blanks by decide), fun rest => ?_⟩
        rw [Filler.text, append_assoc]
        exact (scan_cons_two (by simp [step, reading, units])).trans (goScan_line hfirst)
      | block body =>
        refine ⟨current, hcurrent, fun rest => ?_⟩
        rw [Filler.text, append_assoc]
        exact (scan_cons_two (by simp [step, reading])).trans (goScan_block hfirst)
    obtain ⟨ws, hws, hscan⟩ := hstep
    obtain ⟨ws', hws', hscan'⟩ := ih (fun f hf => hends f (.tail _ hf)) hws
    rw [flatMap_cons, append_assoc]
    exact ⟨ws', hws', (hscan _).trans hscan'⟩

lemma goScan_script {parts : List (List Filler × List UInt8)} {ending : List Filler}
    (hparts : ∀ part ∈ parts, Statement part.2 ∧ ∀ filler ∈ part.1, filler.Ends)
    (hending : ∀ filler ∈ ending, filler.Ends) (hcurrent : ∀ ch ∈ current, ch ∈ blanks) (done : List (List UInt8))
    (last : Option UInt8) : ∃ ws last', (∀ ch ∈ ws, ch ∈ blanks) ∧
      goScan (reading done current none last) (script parts ending) =
        reading (done ++ parts.map Prod.snd) ws none last' := by
  induction parts generalizing done current last with
  | nil =>
    obtain ⟨ws, hws, hscan⟩ := goScan_fillers hending hcurrent done last []
    rw [append_nil] at hscan
    exact ⟨ws, last, hws, by rwa [map_nil, append_nil]⟩
  | cons part parts ih =>
    obtain ⟨hst, hends⟩ := hparts part (.head _)
    obtain ⟨ws, hws, hscan⟩ := goScan_fillers hends hcurrent done last _
    obtain ⟨last', hclosed⟩ := goScan_closed hst.closed ws last
    have hnewline : ∀ ch ∈ [byte '\n'], ch ∈ blanks := forall_mem_singleton.2 (by decide)
    obtain ⟨ws', last'', hws', hrest⟩ := ih (fun p hp => hparts p (.tail _ hp)) hnewline (done ++ [part.2]) last'
    refine ⟨ws', last'', hws', (hscan.trans (hclosed.trans ?_)).trans (hrest.trans (by simp))⟩
    have hkeep : keep (trimSpace (ws ++ part.2)) = [part.2] := by
      rw [hst.trimSpace_append hws, keep, if_neg hst.ne_nil]
    have hend : step utf8.unit (fun current => keep (trimSpace current))
        (reading done (ws ++ part.2) none last') (byte ';') (some (byte '\n')) =
          (reading (done ++ [part.2]) [] none last', false) := by
      simp [step, reading, units, hkeep]
    exact (scan_cons_one hend).trans (goScan_blank (hnewline _ (.head _)))

/-- Joined statements, with comments and blanks between them, are what is read. -/
theorem parse_script {parts : List (List Filler × List UInt8)} {ending : List Filler}
    (hparts : ∀ part ∈ parts, Statement part.2 ∧ ∀ filler ∈ part.1, filler.Ends)
    (hending : ∀ filler ∈ ending, filler.Ends) :
    goParseStatements (script parts ending) = .ok (parts.map Prod.snd) := by
  have hnil : ∀ ch ∈ ([] : List UInt8), ch ∈ blanks := nofun
  obtain ⟨ws, last, hws, hscan⟩ := goScan_script hparts hending hnil [] none
  have hkeep : keep (trimSpace ws) = [] := by
    rw [trimSpace_blanks hws]
    rfl
  unfold goParseStatements
  dsimp only
  rw [show scan _ _ {} (script parts ending) = _ from hscan]
  simp [reading, Scan.finish, hkeep]

/-- The comments hold what would end a statement, and so does the string. -/
theorem parse_script_comments : goParseStatements (script
    [([.block ("; '".toList.map byte)], "RETURN ';'".toList.map byte),
      ([.line ("then;".toList.map byte), .blank 9], "RETURN 1".toList.map byte)] []) =
        .ok ["RETURN ';'".toList.map byte, "RETURN 1".toList.map byte] := by
  refine parse_script (forall_mem_cons.2 ⟨⟨⟨by decide +kernel, by decide +kernel, by decide⟩, ?_⟩,
    forall_mem_singleton.2 ⟨⟨by decide +kernel, by decide +kernel, by decide⟩, ?_⟩⟩) nofun
  · refine forall_mem_singleton.2 ?_
    show ¬ _ <:+: _
    decide
  · exact forall_mem_cons.2 ⟨show _ ∉ _ by decide, forall_mem_singleton.2 (show _ ∈ _ by decide)⟩

end Cypher
