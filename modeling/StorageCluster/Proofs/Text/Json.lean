import StorageCluster.Proofs.Text.Numeral
import StorageCluster.Text.Json.Reader

/-!
# JSON values are read back

The text of a value is read as that value, but for what is told only by a spelling: whether the
names of an object are escaped. Values that keep a literal or stand for no text are left out.
Main result: `read?_render`.
-/
namespace StorageCluster.Json

/-! ## What is read -/

/-- How one character is spelled. -/
def charSpelling (c : Char) : Spelling := if escape c = [c] then .plain else .escaped

/-- How the literal of a text is spelled. -/
def spellingOf (text : String) : Spelling :=
  text.toList.foldl (fun s c => s.join (charSpelling c)) .plain

def namesSpelling (members : List (String × Json)) : Spelling :=
  members.foldl (fun s m => s.join (spellingOf m.1)) .plain

mutual

/-- A value as its text is read: names tell their spelling. -/
def asRead : Json → Json
  | .array items => .array (asReadItems items)
  | .object members _ =>
    .object (asReadMembers members) (namesSpelling members = .plain)
  | j => j

def asReadItems : List Json → List Json
  | [] => []
  | item :: rest => asRead item :: asReadItems rest

def asReadMembers : List (String × Json) → List (String × Json)
  | [] => []
  | (name, value) :: rest => (name, asRead value) :: asReadMembers rest

end

mutual

/-- All of a value is told by its text. -/
def IsExact : Json → Prop
  | .decimal _ | .unpaired => False
  | .array items => AreExact items
  | .object members _ => AreExactMembers members
  | _ => True

def AreExact : List Json → Prop
  | [] => True
  | item :: rest => IsExact item ∧ AreExact rest

def AreExactMembers : List (String × Json) → Prop
  | [] => True
  | (_, value) :: rest => IsExact value ∧ AreExactMembers rest

end

theorem asReadItems_eq (items : List Json) : asReadItems items = items.map asRead := by
  induction items with
  | nil => rfl
  | cons item rest ih => rw [asReadItems, ih, List.map_cons]

theorem asReadMembers_eq (members : List (String × Json)) :
    asReadMembers members = members.map fun m => (m.1, m.2.asRead) := by
  induction members with
  | nil => rfl
  | cons m rest ih => rw [asReadMembers, ih, List.map_cons]

theorem areExact_iff {items : List Json} : AreExact items ↔ ∀ item ∈ items, item.IsExact := by
  induction items with
  | nil => simp [AreExact]
  | cons item rest ih => simp [AreExact, ih]

theorem areExactMembers_iff {members : List (String × Json)} :
    AreExactMembers members ↔ ∀ m ∈ members, m.2.IsExact := by
  induction members with
  | nil => simp [AreExactMembers]
  | cons m rest ih => simp [AreExactMembers, ih]

/-! ## Texts -/

theorem Spelling.join_plain (s : Spelling) : s.join .plain = s := by
  cases s <;> rfl

theorem Spelling.join_ne_unpaired {a b : Spelling} (ha : a ≠ .unpaired) (hb : b ≠ .unpaired) :
    a.join b ≠ .unpaired := by
  cases a <;> cases b <;> simp_all [join]

/-- The texts that are written have no halves of surrogate pairs. -/
theorem foldl_join_ne_unpaired {α : Type} {f : α → Spelling} (hf : ∀ a, f a ≠ .unpaired)
    (xs : List α) {s : Spelling} (hs : s ≠ .unpaired) :
    xs.foldl (fun s a => s.join (f a)) s ≠ .unpaired := by
  induction xs generalizing s with
  | nil => exact hs
  | cons x rest ih => exact ih (s.join_ne_unpaired hs (hf x))

theorem spellingOf_ne_unpaired (text : String) : spellingOf text ≠ .unpaired := by
  refine foldl_join_ne_unpaired (fun c => ?_) text.toList (by decide)
  unfold charSpelling
  split <;> decide

theorem hexDigits_control (c : Char) (h : c.toNat < 32) (rest : List Char) :
    hexDigits 4 0 ('0' :: '0' :: Nat.digitChar (c.toNat / 16) :: Nat.digitChar (c.toNat % 16) ::
      rest) = some (c.toNat, rest) := by
  have hzero : Numeral.digit? 16 '0' = some 0 := by decide
  have hhigh : Numeral.digit? 16 (Nat.digitChar (c.toNat / 16)) = some (c.toNat / 16) :=
    Numeral.digit?_digitChar (by decide) (by omega)
  have hlow : Numeral.digit? 16 (Nat.digitChar (c.toNat % 16)) = some (c.toNat % 16) :=
    Numeral.digit?_digitChar (by decide) (by omega)
  simp only [hexDigits, hzero, hhigh, hlow]
  congr 2
  omega

/-- A control character is read from its code. -/
theorem stringBody_control (fuel : Nat) (acc : List Char) (spelling : Spelling) {c : Char}
    (h : c.toNat < 32) (rest : List Char) :
    stringBody (fuel + 1) acc spelling ('\\' :: 'u' :: '0' :: '0' ::
      Nat.digitChar (c.toNat / 16) :: Nat.digitChar (c.toNat % 16) :: rest) =
        stringBody fuel (c :: acc) (spelling.join .escaped) rest := by
  have hhigh : isHighSurrogate c.toNat = false := by simp [isHighSurrogate]; omega
  have hlow : isLowSurrogate c.toNat = false := by simp [isLowSurrogate]; omega
  simp [stringBody, hexDigits_control c h, hhigh, hlow]

theorem stringBody_plain (fuel : Nat) (acc : List Char) (spelling : Spelling) {c : Char}
    (hquote : c ≠ '"') (hslash : c ≠ '\\') (h : ¬c.toNat < 32) (rest : List Char) :
    stringBody (fuel + 1) acc spelling (c :: rest) = stringBody fuel (c :: acc) spelling rest := by
  rw [stringBody, if_neg h]
  · exact hquote
  · exact fun _ hc _ => hslash hc
  · exact fun _ _ hc _ => hslash hc

/-- An escaped character is read as that character. -/
theorem stringBody_escape (fuel : Nat) (acc : List Char) (spelling : Spelling) (c : Char)
    (rest : List Char) :
    stringBody (fuel + 1) acc spelling (escape c ++ rest) =
      stringBody fuel (c :: acc) (spelling.join (charSpelling c)) rest := by
  unfold charSpelling escape
  split
  next => simp [stringBody, simpleEscape?]
  next => simp [stringBody, simpleEscape?]
  next => simp [stringBody, simpleEscape?]
  next => simp [stringBody, simpleEscape?]
  next => simp [stringBody, simpleEscape?]
  next hquote hslash _ _ _ =>
    by_cases h8 : c.toNat = 8
    · have hc : c = Char.ofNat 8 := by rw [← h8, Char.ofNat_toNat]
      subst hc
      simp [stringBody, simpleEscape?]
    by_cases h12 : c.toNat = 12
    · have hc : c = Char.ofNat 12 := by rw [← h12, Char.ofNat_toNat]
      subst hc
      simp [stringBody, simpleEscape?]
    by_cases h32 : c.toNat < 32
    · simp [h8, h12, h32, stringBody_control fuel acc spelling h32]
    · simp [h8, h12, h32, stringBody_plain fuel acc spelling hquote hslash h32,
        Spelling.join_plain]

theorem length_escape_pos (c : Char) : 0 < (escape c).length := by
  unfold escape
  repeat' split
  all_goals simp

theorem stringBody_quote {cs : List Char} {fuel : Nat} (acc : List Char) (spelling : Spelling)
    (rest : List Char) (h : (cs.flatMap escape).length < fuel) :
    stringBody fuel acc spelling (cs.flatMap escape ++ '"' :: rest) =
      some (cs.reverse ++ acc, cs.foldl (fun s c => s.join (charSpelling c)) spelling, rest) := by
  obtain ⟨fuel, rfl⟩ : ∃ n, fuel = n + 1 := ⟨fuel - 1, by omega⟩
  induction cs generalizing fuel acc spelling with
  | nil => simp [stringBody]
  | cons c cs ih =>
    have hc := length_escape_pos c
    rw [List.flatMap_cons, List.length_append] at h
    obtain ⟨fuel, rfl⟩ : ∃ n, fuel = n + 1 := ⟨fuel - 1, by omega⟩
    rw [List.flatMap_cons, List.append_assoc, stringBody_escape, ih _ _ _ (by omega)]
    simp

theorem toList_quote (text : String) :
    (quote text).toList = '"' :: (text.toList.flatMap escape ++ ['"']) := by
  simp [quote]

theorem stringLiteral_quote (text : String) {fuel : Nat} (rest : List Char)
    (h : (quote text).toList.length ≤ fuel + 1) :
    stringLiteral fuel (text.toList.flatMap escape ++ '"' :: rest) =
      some (text, spellingOf text, rest) := by
  rw [toList_quote, List.length_cons, List.length_append] at h
  rw [stringLiteral, stringBody_quote _ _ _ (Nat.le_of_succ_le_succ h)]
  simp [spellingOf]

/-! ## Numbers -/

/-- What stands behind a number does not belong to it. -/
def EndsNumber (rest : List Char) : Prop :=
  ∀ c ∈ rest.head?, c.isDigit = false ∧ c ≠ '.' ∧ c ≠ 'e' ∧ c ≠ 'E'

theorem spanDigits_append {digits rest : List Char} (h : ∀ c ∈ digits, c.isDigit = true)
    (hr : EndsNumber rest) : spanDigits (digits ++ rest) = (digits, rest) := by
  have htake : rest.takeWhile Char.isDigit = [] := by
    cases rest with
    | nil => rfl
    | cons c rest => rw [List.takeWhile_cons_of_neg (by simp [(hr c rfl).1])]
  have hdrop : rest.dropWhile Char.isDigit = rest := by
    cases rest with
    | nil => rfl
    | cons c rest => rw [List.dropWhile_cons_of_neg (by simp [(hr c rfl).1])]
  rw [spanDigits, List.takeWhile_append_of_pos h, List.dropWhile_append_of_pos h, htake, hdrop,
    List.append_nil]

theorem fraction_none {rest : List Char} (hr : EndsNumber rest) :
    fraction rest = some ([], rest) := by
  unfold fraction
  split
  next => exact absurd rfl (hr '.' rfl).2.1
  next => rfl

theorem exponent_none {rest : List Char} (hr : EndsNumber rest) :
    exponent rest = some ([], rest) := by
  cases rest with
  | nil => rfl
  | cons c rest =>
    obtain ⟨_, _, he, hE⟩ := hr c rfl
    unfold exponent
    simp [he, hE]

/-- The digits of a number are read as that number. -/
theorem numberLiteral_toDigits (n : Nat) {rest : List Char} (hr : EndsNumber rest) :
    numberLiteral (Nat.toDigits 10 n ++ rest) = some (.natural n, rest) := by
  have hdigits : ∀ c ∈ Nat.toDigits 10 n, c.isDigit = true := fun c hc =>
    Nat.isDigit_of_mem_toDigits (by decide) (by decide) hc
  have hwhole : wholePart (Nat.toDigits 10 n ++ rest) = some (Nat.toDigits 10 n, rest) := by
    rw [wholePart, spanDigits_append hdigits hr]
    split
    next he => exact absurd (Prod.mk.inj he).1 Nat.toDigits_ne_nil
    next he => cases Numeral.toDigits_zero_head (Prod.mk.inj he).1
    next he => rw [(Prod.mk.inj he).1, (Prod.mk.inj he).2]
  have hvalue : (Nat.toDigits 10 n).foldl (fun n c => n * 10 + (c.toNat - '0'.toNat)) 0 = n := by
    have h := Nat.ofDigitChars_ten_toDigits (n := n)
    rw [Nat.ofDigitChars_eq_foldl] at h
    simpa only [Nat.mul_comm] using h
  unfold numberLiteral
  split
  next sign body hsign =>
    split at hsign
    next more hd =>
      -- no digit is a sign
      have hm : '-' ∈ Nat.toDigits 10 n ++ rest := by rw [hd]; exact List.mem_cons_self
      cases hcs : Nat.toDigits 10 n with
      | nil => exact absurd hcs Nat.toDigits_ne_nil
      | cons c cs =>
        rw [hcs, List.cons_append] at hd
        have hc := hdigits c (hcs ▸ List.mem_cons_self)
        rw [(List.cons.inj hd).1] at hc
        cases hc
    next =>
      cases hsign
      simp only [hwhole, fraction_none hr, exponent_none hr, and_self, if_true, hvalue]

/-! ## Values -/

/-- A text begins with a character that is no blank and does not close a list. -/
def Opens (cs : List Char) : Prop :=
  ∃ c ∈ cs.head?, c ≠ ' ' ∧ c ≠ '\n' ∧ c ≠ '\t' ∧ c ≠ '\r' ∧ c ≠ ']'

theorem Opens.append {cs : List Char} (h : Opens cs) (rest : List Char) : Opens (cs ++ rest) := by
  obtain ⟨c, hc, hs⟩ := h
  exact ⟨c, by simp [List.head?_append, Option.mem_def.1 hc], hs⟩

theorem Opens.skipBlanks {cs : List Char} (h : Opens cs) : skipBlanks cs = cs := by
  obtain ⟨c, hc, hs⟩ := h
  cases cs with
  | nil => cases hc
  | cons d cs =>
    cases hc
    simp [Json.skipBlanks, hs]

theorem opens_toDigits (n : Nat) : Opens (Nat.toDigits 10 n) := by
  cases hd : Nat.toDigits 10 n with
  | nil => exact absurd hd Nat.toDigits_ne_nil
  | cons c cs =>
    have hc : c.isDigit = true :=
      Nat.isDigit_of_mem_toDigits (b := 10) (n := n) (by decide) (by decide) (by simp [hd])
    refine ⟨c, rfl, ?_, ?_, ?_, ?_, ?_⟩ <;> (rintro rfl; cases hc)

theorem opens_render {j : Json} (h : j.IsExact) : Opens (render j).toList := by
  match j, h with
  | .null, _ => exact ⟨'n', rfl, by decide⟩
  | .bool true, _ => exact ⟨'t', rfl, by decide⟩
  | .bool false, _ => exact ⟨'f', rfl, by decide⟩
  | .natural n, _ =>
    rw [render, Nat.toString_eq_ofList_toDigits, String.toList_ofList]
    exact opens_toDigits n
  | .string text, _ => exact ⟨'"', by simp [render, toList_quote], by decide⟩
  | .array items, _ => exact ⟨'[', by simp [render], by decide⟩
  | .object members _, _ => exact ⟨'\x7b', by simp [render], by decide⟩

theorem opens_renderItems {items : List Json} (h : AreExact items) (hne : items ≠ []) :
    Opens (renderItems items).toList := by
  match items, h with
  | [item], h => exact opens_render h.1
  | item :: next :: rest, h =>
    simpa [renderItems] using (opens_render h.1).append _

theorem endsNumber_cons {c : Char} {rest : List Char} (h : c = ',' ∨ c = ']' ∨ c = '\x7d') :
    EndsNumber (c :: rest) := by
  rintro d hd
  cases hd
  rcases h with rfl | rfl | rfl <;> decide

theorem value_natural (n fuel : Nat) {rest : List Char} (hr : EndsNumber rest) :
    value (fuel + 1) (Nat.toDigits 10 n ++ rest) = some (.natural n, rest) := by
  have hfirst : ∀ c ∈ (Nat.toDigits 10 n ++ rest).head?, c.isDigit = true := by
    intro c hc
    refine Nat.isDigit_of_mem_toDigits (b := 10) (n := n) (by decide) (by decide) ?_
    cases hd : Nat.toDigits 10 n with
    | nil => exact absurd hd Nat.toDigits_ne_nil
    | cons d ds =>
      rw [hd] at hc
      cases hc
      exact List.mem_cons_self
  rw [value, ((opens_toDigits n).append rest).skipBlanks]
  split
  next h => cases hfirst 'n' (by simp [h])
  next h => cases hfirst 't' (by simp [h])
  next h => cases hfirst 'f' (by simp [h])
  next h => cases hfirst '"' (by simp [h])
  next h => cases hfirst '[' (by simp [h])
  next h => cases hfirst '{' (by simp [h])
  next => exact numberLiteral_toDigits n hr

theorem value_array {items : List Json} (hi : AreExact items) (hne : items ≠ []) (fuel : Nat)
    (rest : List Char) :
    value (fuel + 1) ('[' :: ((renderItems items).toList ++ rest)) =
      Json.items fuel [] ((renderItems items).toList ++ rest) := by
  have ho : Opens ((renderItems items).toList ++ rest) := (opens_renderItems hi hne).append rest
  simp only [value, skipBlanks, Char.reduceEq, or_self, if_false, ho.skipBlanks]
  obtain ⟨c, hc, hs⟩ := ho
  split
  next h =>
    rw [h] at hc
    cases hc
    exact absurd rfl hs.2.2.2.2
  next => rfl

theorem renderMembers_quote (m : String × Json) (more : List (String × Json)) :
    ∃ rest, (renderMembers (m :: more)).toList = '"' :: rest := by
  obtain ⟨name, j⟩ := m
  cases more with
  | nil =>
    rw [renderMembers, String.toList_append, String.toList_append, toList_quote]
    exact ⟨_, rfl⟩
  | cons next more =>
    simp only [renderMembers, String.toList_append, toList_quote]
    exact ⟨_, rfl⟩

theorem value_object (m : String × Json) (more : List (String × Json)) (fuel : Nat)
    (rest : List Char) :
    value (fuel + 1) ('{' :: ((renderMembers (m :: more)).toList ++ rest)) =
      Json.members fuel [] .plain ((renderMembers (m :: more)).toList ++ rest) := by
  obtain ⟨body, hb⟩ := renderMembers_quote m more
  simp [hb, value, skipBlanks]

theorem length_render_pos {j : Json} (h : j.IsExact) : 0 < (render j).toList.length := by
  obtain ⟨c, hc, _⟩ := opens_render h
  exact List.length_pos_of_mem (List.mem_of_mem_head? hc)

/-- What is read behind a member: a further one, or the end of the object. -/
def afterMember (fuel : Nat) (acc : List (String × Json)) (spelling : Spelling)
    (chars : List Char) : Option (Json × List Char) :=
  match skipBlanks chars with
  | ',' :: rest => members fuel acc spelling rest
  | '}' :: rest =>
    some (if spelling = .unpaired then .unpaired
      else .object acc.reverse (spelling = .plain), rest)
  | _ => none

/-- One member is read; then comes what stands behind it. -/
theorem members_cons (name : String) {j : Json} {fuel : Nat} (acc : List (String × Json))
    (spelling : Spelling) {rest : List Char} (hname : (quote name).toList.length ≤ fuel)
    (hvalue : value fuel ((render j).toList ++ rest) = some (j.asRead, rest)) :
    members (fuel + 1) acc spelling ((quote name).toList ++ ':' :: ((render j).toList ++ rest)) =
      afterMember fuel ((name, j.asRead) :: acc) (spelling.join (spellingOf name)) rest := by
  have hl := stringLiteral_quote name
    (':' :: ((render j).toList ++ rest)) (show _ ≤ fuel + 1 by omega)
  rw [toList_quote]
  simp only [members, skipBlanks, List.cons_append, List.append_assoc, List.nil_append,
    Char.reduceEq, or_self, if_false, hl, hvalue]
  rfl

/-- With so many steps, texts of values that are short enough are read back. -/
def ReadsValues (fuel : Nat) : Prop :=
  ∀ (j : Json) (rest : List Char), j.IsExact → (render j).toList.length ≤ fuel →
    EndsNumber rest → value fuel ((render j).toList ++ rest) = some (j.asRead, rest)

def ReadsItems (fuel : Nat) : Prop :=
  ∀ (list acc : List Json) (rest : List Char), list ≠ [] → AreExact list →
    (renderItems list).toList.length < fuel →
      items fuel acc ((renderItems list).toList ++ ']' :: rest) =
        some (.array (acc.reverse ++ asReadItems list), rest)

def ReadsMembers (fuel : Nat) : Prop :=
  ∀ (list acc : List (String × Json)) (spelling : Spelling) (rest : List Char), list ≠ [] →
    AreExactMembers list → spelling ≠ .unpaired → (renderMembers list).toList.length < fuel →
      members fuel acc spelling ((renderMembers list).toList ++ '}' :: rest) =
        some (.object (acc.reverse ++ asReadMembers list)
          (list.foldl (fun s m => s.join (spellingOf m.1)) spelling = .plain), rest)

variable {fuel : Nat}

theorem ReadsValues.next (hi : ReadsItems fuel) (hm : ReadsMembers fuel) :
    ReadsValues (fuel + 1) := by
  intro j rest hj hf hr
  cases j with
  | null => simp [render, value, skipBlanks, asRead]
  | bool b => cases b <;> simp [render, value, skipBlanks, asRead]
  | natural n =>
    rw [render, Nat.toString_eq_ofList_toDigits, String.toList_ofList]
    exact value_natural n fuel hr
  | decimal literal => exact hj.elim
  | string text =>
    rw [render] at hf ⊢
    rw [toList_quote]
    simp [value, skipBlanks, stringLiteral_quote _ rest hf, spellingOf_ne_unpaired, asRead]
  | unpaired => exact hj.elim
  | array list =>
    by_cases hne : list = []
    · simp [hne, render, renderItems, value, skipBlanks, asRead, asReadItems]
    · have hl : (renderItems list).toList.length < fuel := by
        simp [render] at hf
        omega
      have htext : (render (.array list)).toList ++ rest =
          '[' :: ((renderItems list).toList ++ ']' :: rest) := by
        simp [render]
      rw [htext, value_array hj hne, hi list [] rest hne hj hl, asRead]
      rfl
  | object list plain =>
    cases list with
    | nil => simp [render, renderMembers, value, skipBlanks, asRead, asReadMembers, namesSpelling]
    | cons m more =>
      have hl : (renderMembers (m :: more)).toList.length < fuel := by
        simp [render] at hf
        omega
      have htext : (render (.object (m :: more) plain)).toList ++ rest =
          '{' :: ((renderMembers (m :: more)).toList ++ '}' :: rest) := by
        simp [render]
      rw [htext, value_object, hm (m :: more) [] .plain rest (by simp) hj (by decide) hl, asRead]
      rfl

theorem ReadsItems.next (hv : ReadsValues fuel) (hi : ReadsItems fuel) :
    ReadsItems (fuel + 1) := by
  intro list acc rest hne hl hf
  rw [areExact_iff] at hl
  obtain _ | ⟨item, _ | ⟨next, more⟩⟩ := list
  · exact absurd rfl hne
  · have hlen : (render item).toList.length ≤ fuel := by
      simp [renderItems] at hf
      omega
    have hvalue := hv item (']' :: rest) (hl item (by simp)) hlen (endsNumber_cons (by simp))
    simp [renderItems, items, hvalue, skipBlanks, asReadItems]
  · have hlen : (render item).toList.length + ((renderItems (next :: more)).toList.length + 1) <
        fuel + 1 := by
      simpa [renderItems] using hf
    have hvalue := hv item (',' :: ((renderItems (next :: more)).toList ++ ']' :: rest))
      (hl item (by simp)) (by omega) (endsNumber_cons (by simp))
    have hmore := hi (next :: more) (item.asRead :: acc) rest (by simp)
      (areExact_iff.2 fun k hk => hl k (List.mem_cons_of_mem item hk)) (by omega)
    simp [renderItems, items, hvalue, skipBlanks, hmore, asReadItems]

theorem ReadsMembers.next (hv : ReadsValues fuel) (hm : ReadsMembers fuel) :
    ReadsMembers (fuel + 1) := by
  intro list acc spelling rest hne hl hs hf
  rw [areExactMembers_iff] at hl
  obtain _ | ⟨⟨name, j⟩, _ | ⟨next, more⟩⟩ := list
  · exact absurd rfl hne
  · have hlen : (quote name).toList.length + ((render j).toList.length + 1) < fuel + 1 := by
      simpa [renderMembers] using hf
    have hvalue := hv j ('}' :: rest) (hl (name, j) (by simp)) (by omega)
      (endsNumber_cons (by simp))
    have hstep := members_cons name acc spelling (by omega) hvalue
    have hjoin := Spelling.join_ne_unpaired hs (spellingOf_ne_unpaired name)
    have htext : (renderMembers [(name, j)]).toList ++ '}' :: rest =
        (quote name).toList ++ ':' :: ((render j).toList ++ '}' :: rest) := by
      simp [renderMembers]
    simp only [afterMember, skipBlanks, Char.reduceEq, or_self, if_false, hjoin] at hstep
    rw [htext, hstep, List.reverse_cons]
    rfl
  · have hlen : (quote name).toList.length + ((render j).toList.length +
        ((renderMembers (next :: more)).toList.length + 1) + 1) < fuel + 1 := by
      simpa [renderMembers] using hf
    have hvalue := hv j (',' :: ((renderMembers (next :: more)).toList ++ '}' :: rest))
      (hl (name, j) (by simp)) (by omega) (endsNumber_cons (by simp))
    have hstep := members_cons name acc spelling (by omega) hvalue
    have hjoin := Spelling.join_ne_unpaired hs (spellingOf_ne_unpaired name)
    have hmore := hm (next :: more) ((name, j.asRead) :: acc) _ rest (by simp)
      (areExactMembers_iff.2 fun k hk => hl k (List.mem_cons_of_mem _ hk)) hjoin (by omega)
    have htext : (renderMembers ((name, j) :: next :: more)).toList ++ '}' :: rest =
        (quote name).toList ++ ':' :: ((render j).toList ++
          ',' :: ((renderMembers (next :: more)).toList ++ '}' :: rest)) := by
      simp [renderMembers]
    simp only [afterMember, skipBlanks, Char.reduceEq, or_self, if_false, hmore] at hstep
    rw [htext, hstep, List.reverse_cons, List.append_assoc]
    rfl

/-- Every value and separator takes one step, and has at least one character. -/
theorem reads (fuel : Nat) : ReadsValues fuel ∧ ReadsItems fuel ∧ ReadsMembers fuel := by
  induction fuel with
  | zero =>
    refine ⟨fun j rest hj hf _ => ?_, fun _ _ _ _ _ hf => ?_, fun _ _ _ _ _ _ _ hf => ?_⟩
    · have hpos := length_render_pos hj
      omega
    · omega
    · omega
  | succ fuel ih =>
    obtain ⟨hv, hi, hm⟩ := ih
    exact ⟨.next hi hm, .next hv hi, .next hv hm⟩

/-- A value is read back from its text. -/
theorem read?_render {j : Json} (h : j.IsExact) : read? (render j) = some j.asRead := by
  have hv := (reads (2 * (render j).toList.length + 2)).1 j [] h (by omega)
    (by intro c hc; cases hc)
  rw [List.append_nil] at hv
  simp [read?, hv, skipBlanks]

end StorageCluster.Json
