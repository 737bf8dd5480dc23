import CrossChain.Native.JsonReader

/-!
# The language of the json reader

`Reads` says without bounds what the reader accepts and what it makes of it, one
rule for each way through `readValue`, `readObject` and `readArray`.  The bounds
`parse` sets are enough on every text (`readAt_ends`), and what the reader
returns is what the rules derive (`readAt_done_iff`): `parse_exact`.

Proof shape: each token leaves a suffix, a shorter one unless the text has ended;
so a derivation leaves a shorter text, and twice the length bounds the turns.
-/

namespace CrossChain

namespace JsonReader

/-! ## What a token leaves -/

theorem readCStyleComment_suffix (s : Str) : (readCStyleComment s).2 <:+ s := by
  induction s with
  | nil => exact List.suffix_refl _
  | cons c s ih =>
    unfold readCStyleComment
    split
    · exact (List.drop_suffix 1 s).trans (List.suffix_cons c s)
    · exact ih.trans (List.suffix_cons c s)

theorem readCppStyleComment_suffix (s : Str) : readCppStyleComment s <:+ s := by
  induction s with
  | nil => exact List.suffix_refl _
  | cons c s ih =>
    unfold readCppStyleComment
    split
    · exact List.suffix_cons c s
    · exact ih.trans (List.suffix_cons c s)

theorem getNextChar_suffix (s : Str) : (getNextChar s).2 <:+ s := by
  cases s with
  | nil => exact List.suffix_refl _
  | cons c s => exact List.suffix_cons c s

theorem readComment_suffix (s : Str) : (readComment s).2 <:+ s := by
  have hnext := getNextChar_suffix s
  unfold readComment
  simp only
  split
  · exact (readCStyleComment_suffix _).trans hnext
  · split
    · exact (readCppStyleComment_suffix _).trans hnext
    · exact hnext

theorem readString_suffix (s : Str) : (readString s).2 <:+ s := by
  fun_induction readString s with
  | case1 => exact List.suffix_refl _
  | case2 => exact List.suffix_cons _ []
  | case3 e s ih => exact ih.trans ((List.suffix_cons e s).trans (List.suffix_cons _ _))
  | case4 s hc => exact List.suffix_cons _ s
  | case5 c s hc hq ih => exact ih.trans (List.suffix_cons c s)

theorem matches'_suffix (pattern s : Str) : (matches' pattern s).2 <:+ s := by
  unfold matches'
  split
  · exact List.drop_suffix _ s
  · exact List.suffix_refl s

theorem finishToken_suffix (type : TokenType) (s : Str) : (finishToken type s).2 <:+ s := by
  cases type with
  | string => exact readString_suffix s
  | comment => exact readComment_suffix s
  | number => exact List.dropWhile_suffix _
  | true | false | null => exact matches'_suffix _ s
  | _ => exact List.suffix_refl s

theorem readToken_of_nil {s : Str} (h : skipSpaces s = []) :
    readToken s = (⟨.endOfStream, []⟩, []) := by
  unfold readToken
  rw [h]
  rfl

theorem readToken_of_cons {s cur : Str} {c : UInt8} (h : skipSpaces s = c :: cur) :
    readToken s =
      (⟨if (finishToken (tokenType c) cur).1 then tokenType c else .error,
        (c :: cur).take ((c :: cur).length - (finishToken (tokenType c) cur).2.length)⟩,
        (finishToken (tokenType c) cur).2) := by
  unfold readToken
  rw [h]
  rfl

/-- The text of a token and what it leaves are the text behind the spaces. -/
theorem readToken_text (s : Str) : (readToken s).1.text ++ (readToken s).2 = skipSpaces s := by
  cases h : skipSpaces s with
  | nil => rw [readToken_of_nil h]; rfl
  | cons c cur =>
    obtain ⟨front, hfront⟩ := (finishToken_suffix (tokenType c) cur).trans (List.suffix_cons c cur)
    rw [readToken_of_cons h]
    simp only
    generalize (finishToken (tokenType c) cur).2 = rest at hfront ⊢
    rw [← hfront, List.length_append, Nat.add_sub_cancel, List.take_left']
    rfl

theorem readToken_suffix (s : Str) : (readToken s).2 <:+ s := by
  have htext : (readToken s).2 <:+ skipSpaces s := ⟨_, readToken_text s⟩
  exact htext.trans (List.dropWhile_suffix _)

/-- A token takes at least a byte, unless nothing is left. -/
theorem readToken_length (s : Str) :
    (readToken s).2.length < s.length ∨ readToken s = (⟨.endOfStream, []⟩, []) := by
  have hspaces : (skipSpaces s).length ≤ s.length := (List.dropWhile_suffix _).length_le
  cases h : skipSpaces s with
  | nil => exact .inr (readToken_of_nil h)
  | cons c cur =>
    have hlength := (finishToken_suffix (tokenType c) cur).length_le
    rw [h, List.length_cons] at hspaces
    refine .inl ?_
    rw [readToken_of_cons h]
    show (finishToken (tokenType c) cur).2.length < s.length
    omega

theorem readToken_length_lt {s : Str} (h : (readToken s).1.type ≠ .endOfStream) :
    (readToken s).2.length < s.length := by
  obtain hlt | hend := readToken_length s
  · exact hlt
  · rw [hend] at h
    exact absurd rfl h

/-! ## Comments are skipped -/

/-- From the length of the text on, the bound makes no difference. -/
theorem skipCommentTokensGo_congr {n m : Nat} {s : Str} (hn : s.length ≤ n) (hm : s.length ≤ m) :
    skipCommentTokensGo n s = skipCommentTokensGo m s := by
  -- an empty text has no comment
  have hnil (k : Nat) : skipCommentTokensGo k [] = readToken [] := by cases k <;> rfl
  induction n generalizing m s with
  | zero =>
    obtain rfl := List.eq_nil_of_length_eq_zero (Nat.le_zero.mp hn)
    rw [hnil, hnil]
  | succ n ih =>
    cases m with
    | zero =>
      obtain rfl := List.eq_nil_of_length_eq_zero (Nat.le_zero.mp hm)
      rw [hnil, hnil]
    | succ m =>
      unfold skipCommentTokensGo
      simp only
      split
      · rename_i hcomment
        have hlt := readToken_length_lt (s := s) (by rw [hcomment]; decide)
        exact ih (by omega) (by omega)
      · rfl

theorem skipCommentTokens_eq (s : Str) :
    skipCommentTokens s =
      if (readToken s).1.type = .comment then skipCommentTokens (readToken s).2 else readToken s := by
  unfold skipCommentTokens
  cases s with
  | nil => rfl
  | cons c s =>
    rw [List.length_cons, skipCommentTokensGo]
    simp only
    split
    · rename_i hcomment
      have hlt := readToken_length_lt (s := c :: s) (by rw [hcomment]; decide)
      rw [List.length_cons] at hlt
      exact skipCommentTokensGo_congr (by omega) le_rfl
    · rfl

/-- A statement about the token behind the comments, by the comments before it. -/
theorem skipCommentTokens_induction {P : Str → Token × Str → Prop}
    (token : ∀ s, (readToken s).1.type ≠ .comment → P s (readToken s))
    (comment : ∀ s t, (readToken s).1.type = .comment → P (readToken s).2 t → P s t) (s : Str) :
    P s (skipCommentTokens s) := by
  induction hn : s.length using Nat.strongRecOn generalizing s with
  | ind n ih =>
    rw [skipCommentTokens_eq]
    split
    · rename_i hcomment
      have hlt := readToken_length_lt (s := s) (by rw [hcomment]; decide)
      exact comment s _ hcomment (ih _ (by omega) _ rfl)
    · rename_i hcomment
      exact token s hcomment

theorem skipCommentTokens_suffix (s : Str) : (skipCommentTokens s).2 <:+ s := by
  apply skipCommentTokens_induction (P := fun s t => t.2 <:+ s)
  · exact fun s _ => readToken_suffix s
  · exact fun s t _ h => h.trans (readToken_suffix s)

theorem skipCommentTokens_length_lt {s : Str}
    (h : (skipCommentTokens s).1.type ≠ .endOfStream) :
    (skipCommentTokens s).2.length < s.length := by
  revert h
  apply skipCommentTokens_induction
    (P := fun s t => t.1.type ≠ .endOfStream → t.2.length < s.length)
  · exact fun s _ h => readToken_length_lt h
  · intro s t _ ih h
    exact (ih h).trans_le (readToken_suffix s).length_le

/-! ## The rules -/

/-- What the reader is in the middle of. -/
inductive Place where
  | value
  /-- An object, with the last name and the members so far. -/
  | members (name : Str) (members : Object)
  /-- An array, with the elements so far. -/
  | elems (elems : List Json)

/-- The function of the reader that goes on from there. -/
def readAt (scan : Str → Option ℚ) (turns : Nat) : Place → Str → Outcome
  | .value, s => readValue scan turns s
  | .members name members, s => readObject scan turns name members s
  | .elems elems, s => readArray scan turns elems s

/-- The value that a token of its own is. -/
def scalar (scan : Str → Option ℚ) (token : Token) : Option Json :=
  match token.type with
  | .number => decodeNumber scan token.text
  | .string => (decodeString token.text).map fun decoded => .string (cStr decoded)
  | .true => some (.bool true)
  | .false => some (.bool false)
  | .null => some .null
  | _ => none

/-- The members with one more. -/
def enter (members : Object) (name : Str) (value : Json) : Object :=
  OrdMap.insert nameRank members (nameOf (cStr name)) value

/-- `Reads scan place s v r`: from `place` the reader goes over `s`, returns `v` and
    leaves `r`. -/
inductive Reads (scan : Str → Option ℚ) : Place → Str → Json → Str → Prop
  | scalar {s r : Str} {token : Token} {v : Json} (htoken : skipCommentTokens s = (token, r))
      (hv : JsonReader.scalar scan token = some v) : Reads scan .value s v r
  | object {s r r' : Str} {token : Token} {v : Json} (htoken : skipCommentTokens s = (token, r))
      (htype : token.type = .objectBegin) (hmembers : Reads scan (.members [] []) r v r') :
      Reads scan .value s v r'
  | emptyArray {s r : Str} {token : Token} (htoken : skipCommentTokens s = (token, r))
      (htype : token.type = .arrayBegin) (hend : (skipSpaces r).head? = some 0x5d) :
      Reads scan .value s (.array []) (readToken r).2
  | array {s r r' : Str} {token : Token} {v : Json} (htoken : skipCommentTokens s = (token, r))
      (htype : token.type = .arrayBegin) (hend : (skipSpaces r).head? ≠ some 0x5d)
      (helems : Reads scan (.elems []) r v r') : Reads scan .value s v r'
  | membersEnd {s r : Str} {token : Token} {members : Object}
      (htoken : skipCommentTokens s = (token, r)) (htype : token.type = .objectEnd) :
      Reads scan (.members [] members) s (.object members) r
  | lastMember {s r r₁ r₂ r₃ name name' : Str} {token : Token} {members : Object} {value : Json}
      (htoken : skipCommentTokens s = (token, r)) (hname : readName token r = .ok (name', r₁))
      (hvalue : Reads scan .value r₁ value r₂) (hcomma : readComma r₂ = .ok (.objectEnd, r₃)) :
      Reads scan (.members name members) s (.object (enter members name' value)) r₃
  | nextMember {s r r₁ r₂ r₃ r₄ name name' : Str} {token : Token} {members : Object}
      {value v : Json} {comma : TokenType}
      (htoken : skipCommentTokens s = (token, r)) (hname : readName token r = .ok (name', r₁))
      (hvalue : Reads scan .value r₁ value r₂) (hcomma : readComma r₂ = .ok (comma, r₃))
      (htype : comma ≠ .objectEnd)
      (hmembers : Reads scan (.members name' (enter members name' value)) r₃ v r₄) :
      Reads scan (.members name members) s v r₄
  | lastElem {s r r₁ : Str} {token : Token} {elems : List Json} {value : Json}
      (hvalue : Reads scan .value s value r) (htoken : skipCommentTokens r = (token, r₁))
      (htype : token.type = .arrayEnd) :
      Reads scan (.elems elems) s (.array (elems ++ [value])) r₁
  | nextElem {s r r₁ r₂ : Str} {token : Token} {elems : List Json} {value v : Json}
      (hvalue : Reads scan .value s value r) (htoken : skipCommentTokens r = (token, r₁))
      (htype : token.type ≠ .arrayEnd) (helems : Reads scan (.elems (elems ++ [value])) r₁ v r₂) :
      Reads scan (.elems elems) s v r₂

section

variable {scan : Str → Option ℚ}

theorem readValue_succ (turns : Nat) {s r : Str} {token : Token}
    (htoken : skipCommentTokens s = (token, r)) :
    readValue scan (turns + 1) s =
      if token.type = .objectBegin then readObject scan turns [] [] r
      else if token.type = .arrayBegin then
        if (skipSpaces r).head? = some 0x5d then .done (.array []) (readToken r).2
        else readArray scan turns [] r
      else
        match scalar scan token with
        | some v => .done v r
        | none => .failed r := by
  rw [readValue, htoken]
  simp only
  cases htype : token.type with
  | number =>
    cases hvalue : decodeNumber scan token.text <;> simp [scalar, htype, hvalue]
  | string =>
    cases hvalue : decodeString token.text <;> simp [scalar, htype, hvalue]
  | _ => simp [scalar, htype]

theorem readObject_succ (turns : Nat) {s r name : Str} {members : Object} {token : Token}
    (htoken : skipCommentTokens s = (token, r)) :
    readObject scan (turns + 1) name members s =
      if token.type = .objectEnd ∧ name = [] then .done (.object members) r
      else
        match readName token r with
        | .error r => .failed (recoverFromError .objectEnd r)
        | .ok (name', r₁) =>
          match readValue scan turns r₁ with
          | .outOfTurns => .outOfTurns
          | .failed r => .failed (recoverFromError .objectEnd r)
          | .done value r₂ =>
            match readComma r₂ with
            | .error r => .failed (recoverFromError .objectEnd r)
            | .ok (comma, r₃) =>
              if comma = .objectEnd then .done (.object (enter members name' value)) r₃
              else readObject scan turns name' (enter members name' value) r₃ := by
  rw [readObject, htoken]
  rfl

theorem readArray_succ (turns : Nat) (s : Str) (elems : List Json) :
    readArray scan (turns + 1) elems s =
      match readValue scan turns s with
      | .outOfTurns => .outOfTurns
      | .failed r => .failed (recoverFromError .arrayEnd r)
      | .done value r =>
        if (skipCommentTokens r).1.type = .arrayEnd then
          .done (.array (elems ++ [value])) (skipCommentTokens r).2
        else readArray scan turns (elems ++ [value]) (skipCommentTokens r).2 := by
  rw [readArray]
  cases readValue scan turns s with
  | done value r =>
    -- the test for a bad token is never met
    have hnot : ¬ ((skipCommentTokens r).1.type = .arraySeparator ∧
        (skipCommentTokens r).1.type = .arrayEnd) := by
      intro hboth
      rw [hboth.1] at hboth
      exact absurd hboth.2 (by decide)
    simp only [if_neg hnot]
  | failed r => rfl
  | outOfTurns => rfl

/-! ## What the reader returns is derived -/

theorem reads_of_readAt {turns : Nat} {place : Place} {s r : Str} {v : Json}
    (h : readAt scan turns place s = .done v r) : Reads scan place s v r := by
  induction turns generalizing place s v r with
  | zero => cases place <;> cases h
  | succ turns ih =>
    cases place with
    | value =>
      rw [readAt, readValue_succ turns rfl] at h
      split at h
      · rename_i htype
        exact .object rfl htype (ih h)
      · split at h
        · rename_i htype
          split at h
          · rename_i hend
            cases h
            exact .emptyArray rfl htype hend
          · rename_i hend
            exact .array rfl htype hend (ih h)
        · split at h
          · rename_i hv
            cases h
            exact .scalar rfl hv
          · cases h
    | members name members =>
      rw [readAt, readObject_succ turns rfl] at h
      split at h
      · rename_i hend
        obtain ⟨htype, rfl⟩ := hend
        cases h
        exact .membersEnd rfl htype
      · split at h
        · cases h
        · rename_i hname
          split at h
          · cases h
          · cases h
          · rename_i hvalue
            have hvalue : Reads scan .value _ _ _ := ih hvalue
            split at h
            · cases h
            · rename_i comma r₃ hcomma
              split at h
              · rename_i hend
                subst hend
                cases h
                exact .lastMember rfl hname hvalue hcomma
              · rename_i hend
                exact .nextMember rfl hname hvalue hcomma hend (ih h)
    | elems elems =>
      rw [readAt, readArray_succ] at h
      split at h
      · cases h
      · cases h
      · rename_i hvalue
        have hvalue : Reads scan .value _ _ _ := ih hvalue
        split at h
        · rename_i hend
          cases h
          exact .lastElem hvalue rfl hend
        · rename_i hend
          exact .nextElem hvalue rfl hend (ih h)

/-! ## A derivation goes over the text -/

theorem readName_suffix {token : Token} {s r name : Str} (h : readName token s = .ok (name, r)) :
    r <:+ s := by
  unfold readName at h
  split at h
  · cases h
  · split at h
    · cases h
    · simp only at h
      split at h
      · cases h
      · cases h
        exact readToken_suffix s

theorem readComma_suffix {s r : Str} {comma : TokenType} (h : readComma s = .ok (comma, r)) :
    r <:+ s := by
  unfold readComma at h
  simp only at h
  split at h
  · cases h
  · split at h
    · cases h
      exact (skipCommentTokens_suffix _).trans (readToken_suffix s)
    · cases h
      exact readToken_suffix s

theorem token_suffix {s r : Str} {token : Token} (h : skipCommentTokens s = (token, r)) :
    r <:+ s := by
  have hsuffix := skipCommentTokens_suffix s
  rwa [h] at hsuffix

theorem token_length_lt {s r : Str} {token : Token} (h : skipCommentTokens s = (token, r))
    (htype : token.type ≠ .endOfStream) : r.length < s.length := by
  have hlength := skipCommentTokens_length_lt (s := s)
  rw [h] at hlength
  exact hlength htype

theorem scalar_type {token : Token} {v : Json} (h : scalar scan token = some v) :
    token.type ≠ .endOfStream := by
  intro htype
  rw [scalar, htype] at h
  cases h

theorem readName_type {token : Token} {s : Str} {p : Str × Str} (h : readName token s = .ok p) :
    token.type = .string := by
  unfold readName at h
  split at h
  · cases h
  · rename_i htype
    exact not_not.mp htype

theorem Reads.suffix {place : Place} {s r : Str} {v : Json} (h : Reads scan place s v r) :
    r <:+ s := by
  induction h with
  | scalar htoken _ => exact token_suffix htoken
  | object htoken _ _ ih => exact ih.trans (token_suffix htoken)
  | emptyArray htoken _ _ => exact (readToken_suffix _).trans (token_suffix htoken)
  | array htoken _ _ _ ih => exact ih.trans (token_suffix htoken)
  | membersEnd htoken _ => exact token_suffix htoken
  | lastMember htoken hname _ hcomma ih =>
    exact (readComma_suffix hcomma).trans (ih.trans ((readName_suffix hname).trans
      (token_suffix htoken)))
  | nextMember htoken hname _ hcomma _ _ ih ih' =>
    exact ih'.trans ((readComma_suffix hcomma).trans (ih.trans ((readName_suffix hname).trans
      (token_suffix htoken))))
  | lastElem _ htoken _ ih => exact (token_suffix htoken).trans ih
  | nextElem _ htoken _ _ ih ih' => exact ih'.trans ((token_suffix htoken).trans ih)

/-- It goes over a byte at least. -/
theorem Reads.length_lt {place : Place} {s r : Str} {v : Json} (h : Reads scan place s v r) :
    r.length < s.length := by
  induction h with
  | scalar htoken hv => exact token_length_lt htoken (scalar_type hv)
  | object htoken htype hmembers =>
    have hlt := token_length_lt htoken (by rw [htype]; decide)
    exact hmembers.suffix.length_le.trans_lt hlt
  | emptyArray htoken htype hend =>
    have hlt := token_length_lt htoken (by rw [htype]; decide)
    exact (readToken_suffix _).length_le.trans_lt hlt
  | array htoken htype hend helems =>
    have hlt := token_length_lt htoken (by rw [htype]; decide)
    exact helems.suffix.length_le.trans_lt hlt
  | membersEnd htoken htype => exact token_length_lt htoken (by rw [htype]; decide)
  | lastMember htoken hname hvalue hcomma ih =>
    have hlt := (readName_suffix hname).length_le.trans (token_suffix htoken).length_le
    exact ((readComma_suffix hcomma).length_le.trans_lt ih).trans_le hlt
  | nextMember htoken hname hvalue hcomma _ hmembers ih ih' =>
    have hlt := (readName_suffix hname).length_le.trans (token_suffix htoken).length_le
    exact ih'.trans (((readComma_suffix hcomma).length_le.trans_lt ih).trans_le hlt)
  | lastElem _ htoken _ ih => exact (token_suffix htoken).length_le.trans_lt ih
  | nextElem _ htoken _ _ ih ih' =>
    exact ih'.trans ((token_suffix htoken).length_le.trans_lt ih)

/-! ## The bounds are enough -/

/-- The turns that are enough for a text. -/
def Place.cost (place : Place) (s : Str) : Nat :=
  match place with
  | .elems _ => 2 * s.length + 2
  | _ => 2 * s.length + 1

theorem Place.cost_le (place : Place) (s : Str) : place.cost s ≤ 2 * s.length + 2 := by
  cases place <;> simp [Place.cost]

theorem Place.exists_turns {place : Place} {s : Str} {turns : Nat} (h : place.cost s ≤ turns) :
    ∃ n, turns = n + 1 := by
  refine ⟨turns - 1, ?_⟩
  cases place <;> simp only [Place.cost] at h <;> omega

/-- The reader ends on every text. -/
theorem readAt_ends {turns : Nat} {place : Place} {s : Str} (h : place.cost s ≤ turns) :
    readAt scan turns place s ≠ .outOfTurns := by
  induction turns generalizing place s with
  | zero => cases place <;> simp [Place.cost] at h
  | succ turns ih =>
    -- what comes after a shorter text has turns enough
    have hshorter (place' : Place) {s' : Str} (hlt : s'.length < s.length) :
        readAt scan turns place' s' ≠ .outOfTurns := by
      apply ih
      have hle := place'.cost_le s'
      cases place <;> simp only [Place.cost] at h <;> omega
    cases place with
    | value =>
      rw [readAt, readValue_succ turns rfl]
      split
      · rename_i htype
        exact hshorter (.members [] []) (token_length_lt rfl (by rw [htype]; decide))
      · split
        · rename_i htype
          split
          · exact Outcome.noConfusion
          · exact hshorter (.elems []) (token_length_lt rfl (by rw [htype]; decide))
        · split <;> exact Outcome.noConfusion
    | members name members =>
      rw [readAt, readObject_succ turns rfl]
      split
      · exact Outcome.noConfusion
      · split
        · exact Outcome.noConfusion
        · rename_i name' r₁ hname
          have htype := readName_type hname
          have hlt := (readName_suffix hname).length_le.trans_lt
            (token_length_lt rfl (by rw [htype]; decide))
          split
          · rename_i hvalue
            exact absurd hvalue (hshorter .value hlt)
          · exact Outcome.noConfusion
          · rename_i value r₂ hvalue
            have hreads : Reads scan .value r₁ value r₂ := reads_of_readAt hvalue
            have hr₂ := hreads.suffix.length_le
            split
            · exact Outcome.noConfusion
            · rename_i comma r₃ hcomma
              have hr₃ := (readComma_suffix hcomma).length_le
              split
              · exact Outcome.noConfusion
              · exact hshorter (.members name' (enter members name' value)) (by omega)
    | elems elems =>
      have hstart : readAt scan turns .value s ≠ .outOfTurns :=
        ih (by simp only [Place.cost] at h ⊢; omega)
      rw [readAt, readArray_succ]
      split
      · rename_i hvalue
        exact absurd hvalue hstart
      · exact Outcome.noConfusion
      · rename_i value r hvalue
        have hreads : Reads scan .value s value r := reads_of_readAt hvalue
        have hr := hreads.length_lt
        have hle := (skipCommentTokens_suffix r).length_le
        split
        · exact Outcome.noConfusion
        · exact hshorter (.elems (elems ++ [value])) (by omega)

/-- With turns enough the reader returns what is derived. -/
theorem Reads.readAt_eq {place : Place} {s r : Str} {v : Json} (h : Reads scan place s v r)
    {turns : Nat} (hturns : place.cost s ≤ turns) : readAt scan turns place s = .done v r := by
  induction h generalizing turns with
  | @scalar s r token v htoken hv =>
    obtain ⟨turns, rfl⟩ := Place.exists_turns hturns
    have hnot : token.type ≠ .objectBegin ∧ token.type ≠ .arrayBegin := by
      constructor
      all_goals
        intro htype
        rw [JsonReader.scalar, htype] at hv
        cases hv
    rw [readAt, readValue_succ turns htoken, if_neg hnot.1, if_neg hnot.2, hv]
  | @object s r r' token v htoken htype hmembers ih =>
    have hlt := token_length_lt htoken (by rw [htype]; decide)
    obtain ⟨turns, rfl⟩ := Place.exists_turns hturns
    simp only [Place.cost] at hturns
    rw [readAt, readValue_succ turns htoken, if_pos htype]
    exact ih (by simp only [Place.cost]; omega)
  | @emptyArray s r token htoken htype hend =>
    obtain ⟨turns, rfl⟩ := Place.exists_turns hturns
    rw [readAt, readValue_succ turns htoken, if_neg (by rw [htype]; decide), if_pos htype,
      if_pos hend]
  | @array s r r' token v htoken htype hend helems ih =>
    have hlt := token_length_lt htoken (by rw [htype]; decide)
    obtain ⟨turns, rfl⟩ := Place.exists_turns hturns
    simp only [Place.cost] at hturns
    rw [readAt, readValue_succ turns htoken, if_neg (by rw [htype]; decide), if_pos htype,
      if_neg hend]
    exact ih (by simp only [Place.cost]; omega)
  | @membersEnd s r token members htoken htype =>
    obtain ⟨turns, rfl⟩ := Place.exists_turns hturns
    rw [readAt, readObject_succ turns htoken, if_pos ⟨htype, rfl⟩]
  | @lastMember s r r₁ r₂ r₃ name name' token members value htoken hname hvalue hcomma ih =>
    have htype := readName_type hname
    have hlt := (readName_suffix hname).length_le.trans_lt
      (token_length_lt htoken (by rw [htype]; decide))
    obtain ⟨turns, rfl⟩ := Place.exists_turns hturns
    simp only [Place.cost] at hturns
    have hrun : readValue scan turns r₁ = .done value r₂ := ih (by simp only [Place.cost]; omega)
    rw [readAt, readObject_succ turns htoken, if_neg (by rw [htype]; simp), hname]
    simp only [hrun, hcomma, if_true]
  | @nextMember s r r₁ r₂ r₃ r₄ name name' token members value v comma htoken hname hvalue hcomma
      hend hmembers ih ih' =>
    have htype := readName_type hname
    have hlt := (readName_suffix hname).length_le.trans_lt
      (token_length_lt htoken (by rw [htype]; decide))
    have hr₂ := hvalue.suffix.length_le
    have hr₃ := (readComma_suffix hcomma).length_le
    obtain ⟨turns, rfl⟩ := Place.exists_turns hturns
    simp only [Place.cost] at hturns
    have hrun : readValue scan turns r₁ = .done value r₂ := ih (by simp only [Place.cost]; omega)
    rw [readAt, readObject_succ turns htoken, if_neg (by rw [htype]; simp), hname]
    simp only [hrun, hcomma, if_neg hend]
    exact ih' (by simp only [Place.cost]; omega)
  | @lastElem s r r₁ token elems value hvalue htoken htype ih =>
    obtain ⟨turns, rfl⟩ := Place.exists_turns hturns
    simp only [Place.cost] at hturns
    have hrun : readValue scan turns s = .done value r := ih (by simp only [Place.cost]; omega)
    rw [readAt, readArray_succ, hrun]
    simp only [htoken, if_pos htype]
  | @nextElem s r r₁ r₂ token elems value v hvalue htoken htype helems ih ih' =>
    have hr := hvalue.length_lt
    have hr₁ := (token_suffix htoken).length_le
    obtain ⟨turns, rfl⟩ := Place.exists_turns hturns
    simp only [Place.cost] at hturns
    have hrun : readValue scan turns s = .done value r := ih (by simp only [Place.cost]; omega)
    rw [readAt, readArray_succ, hrun]
    simp only [htoken, if_neg htype]
    exact ih' (by simp only [Place.cost]; omega)

/-- The reader returns exactly what is derived. -/
theorem readAt_done_iff {turns : Nat} {place : Place} {s r : Str} {v : Json}
    (h : place.cost s ≤ turns) : readAt scan turns place s = .done v r ↔ Reads scan place s v r :=
  ⟨reads_of_readAt, fun hreads => hreads.readAt_eq h⟩

/-- A text is read in one way. -/
theorem Reads.unique {place : Place} {s r r' : Str} {v v' : Json} (h : Reads scan place s v r)
    (h' : Reads scan place s v' r') : v = v' ∧ r = r' := by
  have hrun := h.readAt_eq (Nat.le_refl (place.cost s))
  rw [h'.readAt_eq (Nat.le_refl _)] at hrun
  cases hrun
  exact ⟨rfl, rfl⟩

theorem parse_eq_some_iff {document : Str} {v : Json} :
    parse scan document = some v ↔ ∃ r, Reads scan .value document v r := by
  have hiff (r : Str) : readAt scan (2 * document.length + 1) .value document = .done v r ↔
      Reads scan .value document v r := readAt_done_iff (Nat.le_refl _)
  unfold parse
  simp only [readAt] at hiff
  cases hrun : readValue scan (2 * document.length + 1) document with
  | done v' r' => simp [← hiff, hrun]
  | failed r' => simp [← hiff, hrun]
  | outOfTurns => simp [← hiff, hrun]

/-- The reader as a whole: it ends on every text within the turns it is given, it returns
    exactly what the rules derive, and they derive one value at most. -/
theorem parse_exact (scan : Str → Option ℚ) (document : Str) :
    (∀ turns, 2 * document.length + 1 ≤ turns → readValue scan turns document ≠ .outOfTurns) ∧
      (∀ v, parse scan document = some v ↔ ∃ r, Reads scan .value document v r) ∧
      ∀ v v' r r', Reads scan .value document v r → Reads scan .value document v' r' →
        v = v' ∧ r = r' := by
  refine ⟨?_, fun v => parse_eq_some_iff, fun v v' r r' h h' => h.unique h'⟩
  intro turns hturns
  have hends : readAt scan turns .value document ≠ .outOfTurns := readAt_ends hturns
  exact hends

end

end JsonReader

end CrossChain
