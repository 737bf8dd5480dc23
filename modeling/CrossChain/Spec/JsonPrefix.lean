import CrossChain.Spec.JsonGrammar

/-!
# Texts cut short and texts run together

An object or an array is read the same whatever follows it (`parse_append`), and
cut short anywhere it is not read at all (`parse_cut`).

Proof shape: inside an object or an array every token is followed by the bracket
that ends it, so no token is at the end of the text, where more text could
change it (`readToken_append_right`).
-/

namespace CrossChain

namespace JsonReader

/-! ## Tokens before a closing bracket -/

/-- A closing bracket is left. -/
def HasBracket (s : Str) : Prop := 0x5d ∈ s ∨ 0x7d ∈ s

theorem HasBracket.of_suffix {s r : Str} (h : HasBracket r) (hsuffix : r <:+ s) : HasBracket s :=
  h.imp (fun hmem => hsuffix.subset hmem) fun hmem => hsuffix.subset hmem

theorem HasBracket.ne_nil {s : Str} (h : HasBracket s) : s ≠ [] := by
  rintro rfl
  obtain h | h := h <;> cases h

/-- The tokens that end an array or an object. -/
def TokenType.Closes (type : TokenType) : Prop := type = .arrayEnd ∨ type = .objectEnd

theorem readString_append {s : Str} (t : Str) (h : (readString s).2 ≠ []) :
    readString (s ++ t) = ((readString s).1, (readString s).2 ++ t) := by
  fun_induction readString s with
  | case1 => exact absurd rfl h
  | case2 => exact absurd rfl h
  | case3 e s ih =>
    rw [List.cons_append, List.cons_append, readString.eq_def]
    simp [ih h]
  | case4 s hc =>
    rw [List.cons_append, readString.eq_def]
    simp
  | case5 c s hc hq ih =>
    rw [List.cons_append, readString.eq_def]
    simp [hc, hq, ih h]

theorem readCStyleComment_append {s : Str} (t : Str) (h : (readCStyleComment s).2 ≠ []) :
    readCStyleComment (s ++ t) = ((readCStyleComment s).1, (readCStyleComment s).2 ++ t) := by
  induction s with
  | nil => exact absurd rfl h
  | cons c s ih =>
    rw [List.cons_append]
    cases s with
    | nil =>
      -- the text ends within the comment
      simp [readCStyleComment] at h
    | cons d s =>
      unfold readCStyleComment at h ⊢
      split at h
      · rename_i hend
        rw [if_pos hend, if_pos (by simpa using hend)]
        rfl
      · rename_i hend
        rw [if_neg hend, if_neg (by simpa using hend)]
        exact ih h

theorem readCppStyleComment_append {s : Str} (t : Str) (h : readCppStyleComment s ≠ []) :
    readCppStyleComment (s ++ t) = readCppStyleComment s ++ t := by
  induction s with
  | nil => exact absurd rfl h
  | cons c s ih =>
    rw [List.cons_append]
    unfold readCppStyleComment at h ⊢
    split at h
    · rename_i hend
      rw [if_pos hend, if_pos hend]
    · rename_i hend
      rw [if_neg hend, if_neg hend]
      exact ih h

theorem readComment_cons (c : UInt8) (s : Str) :
    readComment (c :: s) =
      if c = 0x2a then readCStyleComment s
      else if c = 0x2f then (true, readCppStyleComment s)
      else (false, s) := rfl

theorem readComment_append {s : Str} (t : Str) (h : (readComment s).2 ≠ []) :
    readComment (s ++ t) = ((readComment s).1, (readComment s).2 ++ t) := by
  cases s with
  | nil => exact absurd rfl h
  | cons c s =>
    rw [readComment_cons] at h
    rw [List.cons_append, readComment_cons, readComment_cons]
    by_cases hc : c = 0x2a
    · rw [if_pos hc] at h ⊢
      rw [if_pos hc]
      exact readCStyleComment_append t h
    · rw [if_neg hc] at h ⊢
      rw [if_neg hc]
      by_cases hc' : c = 0x2f
      · rw [if_pos hc'] at h ⊢
        rw [if_pos hc', readCppStyleComment_append t h]
      · rw [if_neg hc', if_neg hc']

theorem readNumber_append {s : Str} (t : Str) (h : readNumber s ≠ []) :
    readNumber (s ++ t) = readNumber s ++ t := by
  unfold readNumber at h ⊢
  rw [List.dropWhile_append, if_neg (by simpa using h)]

/-- A word that is cut off by a bracket is not the word, with or without more text. -/
theorem matches'_append {pattern s : Str} (t : Str) (hpattern : ¬ HasBracket pattern)
    (h : HasBracket (matches' pattern s).2) :
    matches' pattern (s ++ t) = ((matches' pattern s).1, (matches' pattern s).2 ++ t) := by
  unfold matches' at h ⊢
  split at h
  · rename_i hprefix
    obtain ⟨rest, rfl⟩ := List.isPrefixOf_iff_prefix.mp hprefix
    have hprefix' : pattern.isPrefixOf (pattern ++ rest ++ t) :=
      List.isPrefixOf_iff_prefix.mpr ⟨rest ++ t, by simp⟩
    rw [if_pos hprefix, if_pos hprefix']
    simp
  · rename_i hprefix
    have hprefix' : ¬ pattern.isPrefixOf (s ++ t) := by
      intro hpre
      obtain hlonger | hshorter := List.prefix_or_prefix_of_prefix
        (List.isPrefixOf_iff_prefix.mp hpre) (List.prefix_append s t)
      · exact hprefix (List.isPrefixOf_iff_prefix.mpr hlonger)
      · -- then the bracket would be a part of the word
        exact hpattern (h.imp (fun hmem => hshorter.subset hmem) fun hmem => hshorter.subset hmem)
    rw [if_neg hprefix, if_neg hprefix']

theorem finishToken_append {type : TokenType} {s : Str} (t : Str)
    (h : HasBracket (finishToken type s).2) :
    finishToken type (s ++ t) = ((finishToken type s).1, (finishToken type s).2 ++ t) := by
  cases type with
  | string => exact readString_append t h.ne_nil
  | comment => exact readComment_append t h.ne_nil
  | number =>
    show (true, readNumber (s ++ t)) = (true, readNumber s ++ t)
    rw [readNumber_append t h.ne_nil]
  | true => exact matches'_append t (by unfold HasBracket; decide) h
  | false => exact matches'_append t (by unfold HasBracket; decide) h
  | null => exact matches'_append t (by unfold HasBracket; decide) h
  | _ => rfl

theorem skipSpaces_append {s : Str} (t : Str) (h : skipSpaces s ≠ []) :
    skipSpaces (s ++ t) = skipSpaces s ++ t := by
  unfold skipSpaces at h ⊢
  rw [List.dropWhile_append, if_neg (by simpa using h)]

theorem tokenType_closes {c : UInt8} (h : (tokenType c).Closes) : c = 0x5d ∨ c = 0x7d := by
  have key : ∀ c : UInt8, tokenType c = .arrayEnd ∨ tokenType c = .objectEnd →
      c = 0x5d ∨ c = 0x7d := by
    apply Bytes.forall_byte
    decide +kernel
  exact key c h

/-- A token is the same with more text behind, if it closes something or something is
    closed behind it. -/
theorem readToken_append_right {s : Str}
    (hclosed : (readToken s).1.type.Closes ∨ HasBracket (readToken s).2) (t : Str) :
    HasBracket s ∧ readToken (s ++ t) = ((readToken s).1, (readToken s).2 ++ t) := by
  cases hs : skipSpaces s with
  | nil =>
    rw [readToken_of_nil hs] at hclosed
    obtain hcloses | hbracket := hclosed
    · exact absurd hcloses (by simp [TokenType.Closes])
    · exact absurd rfl hbracket.ne_nil
  | cons c cur =>
    have hspaces : skipSpaces (s ++ t) = c :: (cur ++ t) := by
      rw [skipSpaces_append t (by rw [hs]; exact List.cons_ne_nil c cur), hs, List.cons_append]
    have hcur : c :: cur <:+ s := by
      rw [← hs]
      exact List.dropWhile_suffix _
    rw [readToken_of_cons hs] at hclosed ⊢
    have hfinish : HasBracket (c :: cur) ∧ finishToken (tokenType c) (cur ++ t) =
        ((finishToken (tokenType c) cur).1, (finishToken (tokenType c) cur).2 ++ t) := by
      obtain hcloses | hbracket := hclosed
      · -- the token is the bracket
        have htype : (tokenType c).Closes := by
          simp only at hcloses
          split at hcloses
          · exact hcloses
          · exact absurd hcloses (by simp [TokenType.Closes])
        obtain rfl | rfl := tokenType_closes htype
        · exact ⟨.inl List.mem_cons_self, rfl⟩
        · exact ⟨.inr List.mem_cons_self, rfl⟩
      · exact ⟨hbracket.of_suffix ((finishToken_suffix _ cur).trans (List.suffix_cons c cur)),
          finishToken_append t hbracket⟩
    refine ⟨hfinish.1.of_suffix hcur, ?_⟩
    have hle := (finishToken_suffix (tokenType c) cur).length_le
    rw [readToken_of_cons hspaces, hfinish.2]
    simp only [List.length_cons, List.length_append]
    rw [show cur.length + t.length + 1 - ((finishToken (tokenType c) cur).2.length + t.length) =
      cur.length + 1 - (finishToken (tokenType c) cur).2.length by omega]
    rw [← List.cons_append, List.take_append_of_le_length (by rw [List.length_cons]; omega)]

theorem skipCommentTokens_append {s : Str}
    (hclosed : (skipCommentTokens s).1.type.Closes ∨ HasBracket (skipCommentTokens s).2) (t : Str) :
    HasBracket s ∧
      skipCommentTokens (s ++ t) = ((skipCommentTokens s).1, (skipCommentTokens s).2 ++ t) := by
  revert hclosed
  apply skipCommentTokens_induction
    (P := fun s p => p.1.type.Closes ∨ HasBracket p.2 →
      HasBracket s ∧ skipCommentTokens (s ++ t) = (p.1, p.2 ++ t))
  · intro s hcomment hclosed
    obtain ⟨hbracket, happend⟩ := readToken_append_right hclosed t
    refine ⟨hbracket, ?_⟩
    rw [skipCommentTokens_eq, happend, if_neg hcomment]
  · intro s p hcomment ih hclosed
    -- the bracket is behind the comment
    obtain ⟨hbracket, hskip⟩ := ih hclosed
    have happend := (readToken_append_right (.inr hbracket) t).2
    refine ⟨hbracket.of_suffix (readToken_suffix s), ?_⟩
    rw [skipCommentTokens_eq, happend, if_pos hcomment, hskip]

theorem token_append {s r : Str} {token : Token} (h : skipCommentTokens s = (token, r))
    (hclosed : token.type.Closes ∨ HasBracket r) (t : Str) :
    HasBracket s ∧ skipCommentTokens (s ++ t) = (token, r ++ t) := by
  have happend := skipCommentTokens_append (s := s)
  rw [h] at happend
  exact happend hclosed t

/-! ## The parts of a value -/

theorem readName_append {token : Token} {s r name : Str} (h : readName token s = .ok (name, r))
    (hr : HasBracket r) (t : Str) :
    HasBracket s ∧ readName token (s ++ t) = .ok (name, r ++ t) := by
  refine ⟨hr.of_suffix (readName_suffix h), ?_⟩
  unfold readName at h ⊢
  split at h
  · cases h
  · rename_i htype
    rw [if_neg htype]
    split at h
    · cases h
    · rename_i name' hdecode
      simp only at h
      split at h
      · cases h
      · rename_i hcolon
        cases h
        have happend := (readToken_append_right (.inr hr) t).2
        simp only [happend, if_neg hcolon]

theorem readComma_append {s r : Str} {comma : TokenType} (h : readComma s = .ok (comma, r))
    (hclosed : comma.Closes ∨ HasBracket r) (t : Str) :
    HasBracket s ∧ readComma (s ++ t) = .ok (comma, r ++ t) := by
  unfold readComma at h ⊢
  simp only at h
  split at h
  · cases h
  · rename_i htype
    split at h
    · rename_i hcomment
      cases h
      obtain ⟨hbracket, hskip⟩ := skipCommentTokens_append hclosed t
      obtain ⟨hbracket', happend⟩ := readToken_append_right (.inr hbracket) t
      refine ⟨hbracket', ?_⟩
      simp only [happend, if_neg htype, if_pos hcomment, hskip]
    · rename_i hcomment
      cases h
      obtain ⟨hbracket, happend⟩ := readToken_append_right hclosed t
      refine ⟨hbracket, ?_⟩
      simp only [happend, if_neg htype, if_neg hcomment]

/-- The place is within an object or an array, or in front of one. -/
def Place.Enclosed (s : Str) : Place → Prop
  | .value => (skipCommentTokens s).1.type = .objectBegin ∨
      (skipCommentTokens s).1.type = .arrayBegin
  | _ => True

section

variable {scan : Str → Option ℚ}

/-- What is enclosed, or has a closing bracket behind it, is read the same with more text. -/
theorem Reads.append {place : Place} {s r : Str} {v : Json} (h : Reads scan place s v r) (t : Str)
    (hclosed : place.Enclosed s ∨ HasBracket r) :
    HasBracket s ∧ Reads scan place (s ++ t) v (r ++ t) := by
  induction h with
  | @scalar s r token v htoken hv =>
    have hbracket : HasBracket r := by
      obtain hbegin | hbracket := hclosed
      · rw [Place.Enclosed, htoken] at hbegin
        rw [JsonReader.scalar] at hv
        obtain htype | htype := hbegin <;> rw [htype] at hv <;> cases hv
      · exact hbracket
    obtain ⟨hs, happend⟩ := token_append htoken (.inr hbracket) t
    exact ⟨hs, .scalar happend hv⟩
  | object htoken htype _ ih =>
    obtain ⟨hr, hreads⟩ := ih (.inl trivial)
    obtain ⟨hs, happend⟩ := token_append htoken (.inr hr) t
    exact ⟨hs, .object happend htype hreads⟩
  | @emptyArray s r token htoken htype hend =>
    obtain ⟨cur, hcons⟩ := List.head?_eq_some_iff.mp hend
    have hclose : (readToken r).1.type.Closes := by
      rw [readToken_of_cons hcons]
      exact .inl rfl
    obtain ⟨hr, hclose⟩ := readToken_append_right (.inl hclose) t
    obtain ⟨hs, happend⟩ := token_append htoken (.inr hr) t
    refine ⟨hs, ?_⟩
    have hreads : Reads scan .value (s ++ t) (.array []) (readToken (r ++ t)).2 := by
      refine .emptyArray happend htype ?_
      rw [skipSpaces_append t (by rw [hcons]; exact List.cons_ne_nil _ cur), hcons]
      rfl
    rwa [hclose] at hreads
  | @array s r r' token v htoken htype hend _ ih =>
    obtain ⟨hr, hreads⟩ := ih (.inl trivial)
    obtain ⟨hs, happend⟩ := token_append htoken (.inr hr) t
    refine ⟨hs, .array happend htype ?_ hreads⟩
    -- there are elements, so more than spaces
    have hne : skipSpaces r ≠ [] := by
      obtain ⟨c, hc, hspace⟩ : ∃ c ∈ r, isSpace c = false := by
        obtain hmem | hmem := hr
        · exact ⟨_, hmem, by decide⟩
        · exact ⟨_, hmem, by decide⟩
      intro hnil
      rw [skipSpaces, List.dropWhile_eq_nil_iff] at hnil
      rw [hnil c hc] at hspace
      cases hspace
    obtain ⟨c, cur, hcons⟩ := List.exists_cons_of_ne_nil hne
    rw [skipSpaces_append t hne, hcons]
    rwa [hcons] at hend
  | membersEnd htoken htype =>
    obtain ⟨hs, happend⟩ := token_append htoken (.inl (.inr htype)) t
    exact ⟨hs, .membersEnd happend htype⟩
  | lastMember htoken hname _ hcomma ih =>
    obtain ⟨hr₂, hcomma⟩ := readComma_append hcomma (.inl (.inr rfl)) t
    obtain ⟨hr₁, hvalue⟩ := ih (.inr hr₂)
    obtain ⟨hr, hname⟩ := readName_append hname hr₁ t
    obtain ⟨hs, happend⟩ := token_append htoken (.inr hr) t
    exact ⟨hs, .lastMember happend hname hvalue hcomma⟩
  | nextMember htoken hname _ hcomma htype _ ih ih' =>
    obtain ⟨hr₃, hmembers⟩ := ih' (.inl trivial)
    obtain ⟨hr₂, hcomma⟩ := readComma_append hcomma (.inr hr₃) t
    obtain ⟨hr₁, hvalue⟩ := ih (.inr hr₂)
    obtain ⟨hr, hname⟩ := readName_append hname hr₁ t
    obtain ⟨hs, happend⟩ := token_append htoken (.inr hr) t
    exact ⟨hs, .nextMember happend hname hvalue hcomma htype hmembers⟩
  | lastElem _ htoken htype ih =>
    obtain ⟨hr, happend⟩ := token_append htoken (.inl (.inl htype)) t
    obtain ⟨hs, hvalue⟩ := ih (.inr hr)
    exact ⟨hs, .lastElem hvalue happend htype⟩
  | nextElem _ htoken htype _ ih ih' =>
    obtain ⟨hr₁, helems⟩ := ih' (.inl trivial)
    obtain ⟨hr, happend⟩ := token_append htoken (.inr hr₁) t
    obtain ⟨hs, hvalue⟩ := ih (.inr hr)
    exact ⟨hs, .nextElem hvalue happend htype helems⟩

/-- The text starts with an object or an array. -/
def Opens (s : Str) : Prop := (skipSpaces s).head? = some 0x7b ∨ (skipSpaces s).head? = some 0x5b

theorem enclosed_of_opens {s : Str} (h : Opens s) : Place.value.Enclosed s := by
  have htype : (readToken s).1.type = .objectBegin ∨ (readToken s).1.type = .arrayBegin := by
    obtain hhead | hhead := h
    all_goals
      obtain ⟨cur, hcons⟩ := List.head?_eq_some_iff.mp hhead
      rw [readToken_of_cons hcons]
    · exact .inl rfl
    · exact .inr rfl
  have hcomment : (readToken s).1.type ≠ .comment := by
    obtain htype | htype := htype <;> rw [htype] <;> decide
  rw [Place.Enclosed, skipCommentTokens_eq, if_neg hcomment]
  exact htype

/-- What follows an object or an array makes no difference. -/
theorem parse_append {s : Str} {v : Json} (hopens : Opens s) (h : parse scan s = some v)
    (t : Str) : parse scan (s ++ t) = some v := by
  obtain ⟨r, hreads⟩ := parse_eq_some_iff.mp h
  exact parse_eq_some_iff.mpr ⟨r ++ t, (hreads.append t (.inl (enclosed_of_opens hopens))).2⟩

/-- Nothing is read in spaces alone. -/
theorem Reads.not_blank {s r : Str} {v : Json} (h : Reads scan .value s v r) :
    skipSpaces s ≠ [] := by
  intro hnil
  have htoken : skipCommentTokens s = (⟨.endOfStream, []⟩, []) := by
    rw [skipCommentTokens_eq, readToken_of_nil hnil]
    rfl
  cases h with
  | scalar htoken' hv =>
    rw [htoken] at htoken'
    cases htoken'
    cases hv
  | object htoken' htype _ => rw [htoken] at htoken'; cases htoken'; cases htype
  | emptyArray htoken' htype _ => rw [htoken] at htoken'; cases htoken'; cases htype
  | array htoken' htype _ _ => rw [htoken] at htoken'; cases htoken'; cases htype

/-- An object or an array without its end is not read. -/
theorem parse_cut {s t r : Str} {v : Json} (hopens : Opens (s ++ t))
    (h : Reads scan .value (s ++ t) v r) (hcut : r.length < t.length) : parse scan s = none := by
  rw [Option.eq_none_iff_forall_ne_some]
  intro v' hv'
  obtain ⟨r', hreads⟩ := parse_eq_some_iff.mp hv'
  have hopens' : Opens s := by
    obtain ⟨c, cur, hcons⟩ := List.exists_cons_of_ne_nil hreads.not_blank
    rw [Opens, skipSpaces_append t hreads.not_blank, hcons] at hopens
    rw [Opens, hcons]
    exact hopens
  have happend := (hreads.append t (.inl (enclosed_of_opens hopens'))).2
  have hrest := (h.unique happend).2
  have hlength := congrArg List.length hrest
  rw [List.length_append] at hlength
  omega

end

end JsonReader

end CrossChain
