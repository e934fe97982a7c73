import Larder.Proofs.NumberTexts
import Larder.Proofs.StringTexts

namespace Larder.Json

mutual

/-- The tree of a value, with a token for each of its numbers. -/
def Node.spelled (number : Number → Token Number) : Value → Node
  | .null => .null
  | .boolean b => .boolean b
  | .number n => .number (number n)
  | .text s => .text (.ofValue s)
  | .sequence items => .sequence (spelledItems number items) .closed
  | .object members => .object (spelledMembers number members) .closed

def Node.spelledItems (number : Number → Token Number) : List Value → List Node
  | [] => []
  | v :: r => .spelled number v :: spelledItems number r

def Node.spelledMembers (number : Number → Token Number) :
    List (String × Value) → List (Token String × Node)
  | [] => []
  | (k, v) :: r => (.ofValue k, .spelled number v) :: spelledMembers number r

end

mutual

/-- A value that is given is spelled with its numbers as they are. -/
theorem spelled_ofValue : ∀ v, Node.spelled Token.ofValue v = .ofValue v
  | .null => rfl
  | .boolean _ => rfl
  | .number _ => rfl
  | .text _ => rfl
  | .sequence items => by rw [Node.spelled, Node.ofValue, spelledItems_ofItems items]
  | .object members => by rw [Node.spelled, Node.ofValue, spelledMembers_ofMembers members]

theorem spelledItems_ofItems : ∀ items, Node.spelledItems Token.ofValue items = Node.ofItems items
  | [] => rfl
  | v :: items => by
    rw [Node.spelledItems, Node.ofItems, spelled_ofValue v, spelledItems_ofItems items]

theorem spelledMembers_ofMembers :
    ∀ members, Node.spelledMembers Token.ofValue members = Node.ofMembers members
  | [] => rfl
  | (key, v) :: members => by
    rw [Node.spelledMembers, Node.ofMembers, spelled_ofValue v, spelledMembers_ofMembers members]

end

section Passing

variable {number : Number → Token Number}

mutual

/-- A value can be passed over if its numbers can. -/
theorem pass_spelled (h : ∀ n, (number n).pass = .ok ()) :
    ∀ v, (Node.spelled number v).pass = .ok ()
  | .null => rfl
  | .boolean _ => rfl
  | .number n => h n
  | .text _ => rfl
  | .sequence items => by
    simp only [Node.spelled, Node.pass, passItems_spelled h items]
    rfl
  | .object members => by
    simp only [Node.spelled, Node.pass, passMembers_spelled h members]
    rfl

theorem passItems_spelled (h : ∀ n, (number n).pass = .ok ()) :
    ∀ items, passItems (Node.spelledItems number items) = .ok ()
  | [] => rfl
  | v :: items => by
    simp only [Node.spelledItems, passItems, pass_spelled h v, passItems_spelled h items]
    rfl

theorem passMembers_spelled (h : ∀ n, (number n).pass = .ok ()) :
    ∀ members, passMembers (Node.spelledMembers number members) = .ok ()
  | [] => rfl
  | (key, v) :: members => by
    simp only [Node.spelledMembers, passMembers, pass_spelled h v, passMembers_spelled h members]
    rfl

end

end Passing

/-- The blanks of a layout: in front of items and closing brackets, by their depth, and behind
colons. -/
structure Spacing where
  gap : Nat → List Char
  colon : List Char
  gap_blank : ∀ depth, ∀ c ∈ gap depth, isSpace c = true
  colon_blank : ∀ c ∈ colon, isSpace c = true

namespace Spacing

/-- All on one line. -/
def oneLine : Spacing := ⟨fun _ => [], [], by simp, by simp⟩

/-- Every item on a line of its own. -/
def lines : Spacing where
  gap depth := '\n' :: List.replicate (2 * depth) ' '
  colon := [' ']
  gap_blank depth c hc := by
    rcases List.mem_cons.mp hc with rfl | hc
    · rfl
    · rw [List.eq_of_mem_replicate hc]
      rfl
  colon_blank c hc := by
    rw [List.mem_singleton.mp hc]
    rfl

/-- Parts between brackets, with commas between them and each behind a gap. -/
def enclose (s : Spacing) (depth : Nat) (opening closing : Char) (parts : List (List Char)) :
    List Char :=
  if parts = [] then [opening, closing]
  else opening :: (s.gap (depth + 1) ++
    ((',' :: s.gap (depth + 1)).intercalate parts ++ (s.gap depth ++ [closing])))

end Spacing

mutual

/-- The text of a value with these blanks, at a depth of nesting. -/
def Value.chars (s : Spacing) (depth : Nat) : Value → List Char
  | .null => ['n', 'u', 'l', 'l']
  | .boolean true => ['t', 'r', 'u', 'e']
  | .boolean false => ['f', 'a', 'l', 's', 'e']
  | .number n => n.text.toList
  | .text t => (stringText t).toList
  | .sequence items => s.enclose depth '[' ']' (itemChars s (depth + 1) items)
  | .object members => s.enclose depth '\x7b' '\x7d' (memberChars s (depth + 1) members)

def itemChars (s : Spacing) (depth : Nat) : List Value → List (List Char)
  | [] => []
  | v :: r => v.chars s depth :: itemChars s depth r

def memberChars (s : Spacing) (depth : Nat) : List (String × Value) → List (List Char)
  | [] => []
  | (k, v) :: r =>
    ((stringText k).toList ++ ':' :: s.colon ++ v.chars s depth) :: memberChars s depth r

end

section Layouts

/-- A gap that is written in front of every part is one behind every comma. -/
theorem intercalate_map_append (comma gap : List Char) (parts : List (List Char))
    (h : parts ≠ []) :
    comma.intercalate (parts.map (gap ++ ·)) = gap ++ (comma ++ gap).intercalate parts := by
  induction parts with
  | nil => exact absurd rfl h
  | cons p parts ih =>
    cases parts with
    | nil => simp [List.intercalate_singleton]
    | cons q r =>
      have hrest := ih (by simp)
      rw [List.map_cons] at hrest
      simp [List.intercalate_cons_cons, hrest]

theorem enclose_oneLine (depth : Nat) (opening closing : Char) (parts : List (List Char)) :
    Spacing.oneLine.enclose depth opening closing parts =
      opening :: [','].intercalate parts ++ [closing] := by
  unfold Spacing.enclose
  split
  · rename_i h
    simp [h]
  · simp [Spacing.oneLine]

theorem layOut_toList (depth : Nat) (opening closing : String) (parts : List String) {o c : Char}
    (ho : opening.toList = [o]) (hc : closing.toList = [c]) :
    (layOut depth opening closing parts).toList =
      Spacing.lines.enclose depth o c (parts.map String.toList) := by
  have hindent : ∀ depth, (indent depth).toList = List.replicate (2 * depth) ' ' := by
    simp [indent]
  have hparts : (parts.map fun p => indent (depth + 1) ++ p).map String.toList =
      (parts.map String.toList).map (List.replicate (2 * (depth + 1)) ' ' ++ ·) := by
    simp [hindent]
  unfold layOut Spacing.enclose
  by_cases hp : parts = []
  · simp [hp, ho, hc]
  · have hsome : parts.map String.toList ≠ [] := by simpa using hp
    rw [if_neg (by simpa using hp), if_neg hsome]
    have hgaps := intercalate_map_append ",\n".toList (List.replicate (2 * (depth + 1)) ' ') _ hsome
    simp only [Spacing.lines, String.toList_append, String.toList_intercalate, hparts, hgaps,
      hindent, ho, hc]
    simp

mutual

theorem print_toList (depth : Nat) : ∀ v : Value, v.print.toList = v.chars .oneLine depth
  | .null => rfl
  | .boolean true => rfl
  | .boolean false => rfl
  | .number _ => rfl
  | .text _ => rfl
  | .sequence items => by
    have hitems := printItems_toList (depth + 1) items
    simp only [Value.print, Value.chars, enclose_oneLine, String.toList_append,
      String.toList_intercalate, hitems]
    rfl
  | .object members => by
    have hmembers := printMembers_toList (depth + 1) members
    simp only [Value.print, Value.chars, enclose_oneLine, String.toList_append,
      String.toList_intercalate, hmembers]
    rfl

theorem printItems_toList (depth : Nat) :
    ∀ items, (printItems items).map String.toList = itemChars .oneLine depth items
  | [] => rfl
  | v :: items => by
    rw [printItems, itemChars, List.map_cons, print_toList depth v, printItems_toList depth items]

theorem printMembers_toList (depth : Nat) :
    ∀ members, (printMembers members).map String.toList = memberChars .oneLine depth members
  | [] => rfl
  | (key, v) :: members => by
    rw [printMembers, memberChars, List.map_cons, printMembers_toList depth members,
      String.toList_append, String.toList_append, print_toList depth v, List.append_assoc,
      List.append_assoc]
    rfl

end

mutual

theorem printLines_toList (depth : Nat) :
    ∀ v : Value, (v.printLines depth).toList = v.chars .lines depth
  | .null => by
    rw [Value.printLines, Value.chars]
    rfl
  | .boolean true => by
    rw [Value.printLines, Value.chars]
    rfl
  | .boolean false => by
    rw [Value.printLines, Value.chars]
    rfl
  | .number _ => by rw [Value.printLines, Value.chars]
  | .text _ => by rw [Value.printLines, Value.chars]
  | .sequence items => by
    rw [Value.printLines, Value.chars, layOut_toList depth "[" "]" _ (o := '[') (c := ']') rfl rfl,
      printLinesItems_toList (depth + 1) items]
  | .object members => by
    rw [Value.printLines, Value.chars,
      layOut_toList depth "\x7b" "\x7d" _ (o := '\x7b') (c := '\x7d') rfl rfl,
      printLinesMembers_toList (depth + 1) members]

theorem printLinesItems_toList (depth : Nat) :
    ∀ items, (printLinesItems depth items).map String.toList = itemChars .lines depth items
  | [] => rfl
  | v :: items => by
    rw [printLinesItems, itemChars, List.map_cons, printLines_toList depth v,
      printLinesItems_toList depth items]

theorem printLinesMembers_toList (depth : Nat) :
    ∀ members, (printLinesMembers depth members).map String.toList =
      memberChars .lines depth members
  | [] => rfl
  | (key, v) :: members => by
    rw [printLinesMembers, memberChars, List.map_cons, printLinesMembers_toList depth members,
      String.toList_append, String.toList_append, printLines_toList depth v, List.append_assoc,
      List.append_assoc]
    rfl

end

end Layouts

section Blanks

variable {blanks cs : List Char}

theorem skipSpace_blanks (h : ∀ c ∈ blanks, isSpace c = true) :
    skipSpace (blanks ++ cs) = skipSpace cs :=
  List.dropWhile_append_of_pos h

theorem skipSpace_cons {c : Char} (h : isSpace c = false) : skipSpace (c :: cs) = c :: cs :=
  List.dropWhile_cons_of_neg (by simp [h])

theorem scanNode_blanks (fuel : Nat) (h : ∀ c ∈ blanks, isSpace c = true) :
    scanNode fuel (blanks ++ cs) = scanNode fuel cs := by
  cases fuel with
  | zero => rfl
  | succ fuel => rw [scanNode, scanNode, skipSpace_blanks h]

/-- Neither a blank nor a comma nor a closing bracket belongs to a number. -/
theorem endsNumber_blanks (h : ∀ c ∈ blanks, isSpace c = true) {c : Char}
    (hc : c ∈ [',', ']', '\x7d']) : EndsNumber (blanks ++ c :: cs) := by
  cases blanks with
  | nil =>
    have hclosing : c.isDigit = false ∧ c ≠ '.' ∧ c ≠ 'e' ∧ c ≠ 'E' := by
      simp only [List.mem_cons, List.not_mem_nil, or_false] at hc
      rcases hc with rfl | rfl | rfl <;> decide
    simpa [EndsNumber] using hclosing
  | cons b blanks =>
    have hb : isSpace b = true := h b (by simp)
    have hblank : b.isDigit = false ∧ b ≠ '.' ∧ b ≠ 'e' ∧ b ≠ 'E' := by
      simp only [isSpace, Bool.or_eq_true, beq_iff_eq] at hb
      rcases hb with ((rfl | rfl) | rfl) | rfl <;> decide
    simpa [EndsNumber] using hblank

theorem endsNumber_comma (cs : List Char) : EndsNumber (',' :: cs) :=
  endsNumber_blanks (List.forall_mem_nil _) (by simp)

/-- What a node or a member can start with: no blank, and no closing bracket. -/
def StartsPart (cs : List Char) : Prop :=
  ∃ c r, cs = c :: r ∧ isSpace c = false ∧ c ≠ ']' ∧ c ≠ '\x7d'

theorem StartsPart.append {ds : List Char} (h : StartsPart cs) : StartsPart (cs ++ ds) := by
  obtain ⟨c, r, rfl, hc⟩ := h
  exact ⟨c, r ++ ds, rfl, hc⟩

theorem StartsPart.skipSpace (h : StartsPart cs) (hb : ∀ c ∈ blanks, isSpace c = true) :
    skipSpace (blanks ++ cs) = cs := by
  obtain ⟨c, r, rfl, hc, -⟩ := h
  exact (skipSpace_blanks hb).trans (skipSpace_cons hc)

theorem startsPart_text (s : String) (cs : List Char) :
    StartsPart ((stringText s).toList ++ cs) :=
  ⟨'"', _, stringText_append s cs, rfl, by decide, by decide⟩

theorem startsPart_chars (s : Spacing) (depth : Nat) (v : Value) :
    StartsPart (v.chars s depth) := by
  have hbracket : ∀ opening ∈ ['[', '\x7b'], ∀ closing parts,
      StartsPart (s.enclose depth opening closing parts) := by
    intro opening ho closing parts
    have hopening : isSpace opening = false ∧ opening ≠ ']' ∧ opening ≠ '\x7d' := by
      simp only [List.mem_cons, List.not_mem_nil, or_false] at ho
      rcases ho with rfl | rfl <;> decide
    unfold Spacing.enclose
    split
    · exact ⟨opening, _, rfl, hopening⟩
    · exact ⟨opening, _, rfl, hopening⟩
  cases v with
  | null => exact ⟨'n', _, rfl, by decide⟩
  | boolean b => cases b with
    | true => exact ⟨'t', _, rfl, by decide⟩
    | false => exact ⟨'f', _, rfl, by decide⟩
  | number n =>
    obtain ⟨w, hw⟩ := exists_written n
    rw [Value.chars, ← hw, WrittenNumber.chars]
    cases w.negative with
    | true => exact ⟨'-', _, rfl, by decide⟩
    | false =>
      obtain ⟨c, cs, hwhole⟩ := List.exists_cons_of_ne_nil w.isWhole.ne_nil
      have hc : c.isDigit = true := w.isWhole.digits c (by simp [hwhole])
      refine ⟨c, cs ++ w.tail, by simp [hwhole], isSpace_digit hc, ?_, ?_⟩
      all_goals
        rintro rfl
        cases hc
  | text t =>
    have htext := startsPart_text t []
    rwa [List.append_nil] at htext
  | sequence items => exact hbracket '[' (by simp) _ _
  | object members => exact hbracket '\x7b' (by simp) _ _

end Blanks

section Steps

variable {fuel : Nat} {gap cs tail rest line : List Char} {node : Node} {nodes : List Node}
  {members : List (Token String × Node)}

theorem scanNode_text (s : String) :
    scanNode (fuel + 1) ((stringText s).toList ++ cs) = (.text (.ofValue s), some cs) := by
  rw [stringText_append, scanNode]
  simp [skipSpace, isSpace, stringToken_written]

theorem scanNode_sequence (hgap : ∀ c ∈ gap, isSpace c = true) (hs : StartsPart cs)
    (h : scanItems fuel cs = (nodes, .closed, some rest)) :
    scanNode (fuel + 1) ('[' :: (gap ++ cs)) = (.sequence nodes .closed, some rest) := by
  have hopen : skipSpace ('[' :: (gap ++ cs)) = '[' :: (gap ++ cs) := rfl
  have hskip : skipSpace (gap ++ cs) = cs := hs.skipSpace hgap
  obtain ⟨c, r, rfl, -, hc, -⟩ := hs
  rw [scanNode]
  simp only [hopen, hskip]
  simp [hc, h]

theorem scanNode_object (hgap : ∀ c ∈ gap, isSpace c = true) (hs : StartsPart cs)
    (h : scanMembers fuel cs = (members, .closed, some rest)) :
    scanNode (fuel + 1) ('\x7b' :: (gap ++ cs)) = (.object members .closed, some rest) := by
  have hopen : skipSpace ('\x7b' :: (gap ++ cs)) = '\x7b' :: (gap ++ cs) := rfl
  have hskip : skipSpace (gap ++ cs) = cs := hs.skipSpace hgap
  obtain ⟨c, r, rfl, -, -, hc⟩ := hs
  rw [scanNode]
  simp only [hopen, hskip]
  simp [hc, h]

theorem scanItems_last (h : scanNode fuel cs = (node, some tail))
    (ht : skipSpace tail = ']' :: rest) :
    scanItems (fuel + 1) cs = ([node], .closed, some rest) := by
  rw [scanItems]
  simp [h, ht]

theorem scanItems_more (h : scanNode fuel cs = (node, some (',' :: (gap ++ line))))
    (hgap : ∀ c ∈ gap, isSpace c = true) (hs : StartsPart line)
    (hr : scanItems fuel line = (nodes, .closed, some rest)) :
    scanItems (fuel + 1) cs = (node :: nodes, .closed, some rest) := by
  have hcomma : skipSpace (',' :: (gap ++ line)) = ',' :: (gap ++ line) := rfl
  have hskip : skipSpace (gap ++ line) = line := hs.skipSpace hgap
  obtain ⟨c, r, rfl, -, hc, -⟩ := hs
  rw [scanItems]
  simp only [h, Option.map_some, hcomma, hskip]
  simp [hc, hr]

theorem scanMembers_last (key : String) (h : scanNode fuel cs = (node, some tail))
    (ht : skipSpace tail = '\x7d' :: rest) :
    scanMembers (fuel + 1) ((stringText key).toList ++ ':' :: cs) =
      ([(.ofValue key, node)], .closed, some rest) := by
  have hcolon : skipSpace (':' :: cs) = ':' :: cs := rfl
  rw [stringText_append, scanMembers]
  simp [stringToken_written, hcolon, h, ht]

theorem scanMembers_more (key : String) (h : scanNode fuel cs = (node, some (',' :: (gap ++ line))))
    (hgap : ∀ c ∈ gap, isSpace c = true) (hs : StartsPart line)
    (hr : scanMembers fuel line = (members, .closed, some rest)) :
    scanMembers (fuel + 1) ((stringText key).toList ++ ':' :: cs) =
      ((.ofValue key, node) :: members, .closed, some rest) := by
  have hcolon : skipSpace (':' :: cs) = ':' :: cs := rfl
  have hcomma : skipSpace (',' :: (gap ++ line)) = ',' :: (gap ++ line) := rfl
  have hskip : skipSpace (gap ++ line) = line := hs.skipSpace hgap
  obtain ⟨c, r, rfl, -, -, hc⟩ := hs
  rw [stringText_append, scanMembers]
  simp only [stringToken_written, Option.map_some, hcolon, h, hcomma, hskip]
  simp [hc, hr]

end Steps

section Scan

variable (s : Spacing) {parts : List (List Char)}

theorem enclose_append (depth : Nat) (opening closing : Char) (h : parts ≠ [])
    (rest : List Char) : s.enclose depth opening closing parts ++ rest =
      opening :: (s.gap (depth + 1) ++ ((',' :: s.gap (depth + 1)).intercalate parts ++
        (s.gap depth ++ closing :: rest))) := by
  simp [Spacing.enclose, h]

/-- Between brackets there is less to scan than with them. -/
theorem length_enclose (depth : Nat) (opening closing : Char) (h : parts ≠ []) :
    ((',' :: s.gap (depth + 1)).intercalate parts).length + 2 ≤
      (s.enclose depth opening closing parts).length := by
  rw [Spacing.enclose, if_neg h]
  simp
  omega

theorem startsPart_intercalate {comma p : List Char} (h : StartsPart p) :
    StartsPart (comma.intercalate (p :: parts)) := by
  cases parts with
  | nil => rwa [List.intercalate_singleton]
  | cons q parts =>
    rw [List.intercalate_cons_cons, List.append_assoc]
    exact h.append

theorem startsPart_items (comma : List Char) (depth : Nat) (v : Value) (items : List Value) :
    StartsPart (comma.intercalate (itemChars s depth (v :: items))) :=
  startsPart_intercalate (startsPart_chars s depth v)

theorem startsPart_members (comma : List Char) (depth : Nat) (key : String) (v : Value)
    (members : List (String × Value)) :
    StartsPart (comma.intercalate (memberChars s depth ((key, v) :: members))) := by
  rw [memberChars, List.append_assoc]
  exact startsPart_intercalate (startsPart_text key _)

mutual

/-- A value is scanned into its tree from any layout, up to what ends it. -/
theorem scanNode_chars : ∀ (v : Value) (depth fuel : Nat) (rest : List Char),
    2 * (v.chars s depth).length < fuel → EndsNumber rest →
      scanNode fuel (v.chars s depth ++ rest) = (.spelled Number.readBack v, some rest)
  | _, _, 0, _, hfuel, _ => absurd hfuel (Nat.not_lt_zero _)
  | .null, _, _ + 1, _, _, _ => rfl
  | .boolean true, _, _ + 1, _, _, _ => rfl
  | .boolean false, _, _ + 1, _, _, _ => rfl
  | .number n, _, fuel + 1, _, _, hr => scanNode_number fuel n hr
  | .text t, _, _ + 1, _, _, _ => scanNode_text t
  | .sequence [], _, _ + 1, _, _, _ => rfl
  | .object [], _, _ + 1, _, _, _ => rfl
  | .sequence (v :: items), depth, fuel + 1, rest, hfuel, _ => by
    have hsome : itemChars s (depth + 1) (v :: items) ≠ [] := List.cons_ne_nil _ _
    have hlength := length_enclose s depth '[' ']' hsome
    rw [Value.chars] at hfuel ⊢
    obtain ⟨fuel, rfl⟩ : ∃ n, fuel = n + 1 := ⟨fuel - 1, by omega⟩
    rw [enclose_append s depth _ _ hsome]
    exact scanNode_sequence (s.gap_blank _) (startsPart_items s _ _ v items).append
      (scanItems_chars (v :: items) (by simp) (depth + 1) fuel rest (s.gap depth)
        (s.gap_blank depth) (by omega))
  | .object ((key, v) :: members), depth, fuel + 1, rest, hfuel, _ => by
    have hsome : memberChars s (depth + 1) ((key, v) :: members) ≠ [] := List.cons_ne_nil _ _
    have hlength := length_enclose s depth '\x7b' '\x7d' hsome
    rw [Value.chars] at hfuel ⊢
    obtain ⟨fuel, rfl⟩ : ∃ n, fuel = n + 1 := ⟨fuel - 1, by omega⟩
    rw [enclose_append s depth _ _ hsome]
    exact scanNode_object (s.gap_blank _) (startsPart_members s _ _ key v members).append
      (scanMembers_chars ((key, v) :: members) (by simp) (depth + 1) fuel rest (s.gap depth)
        (s.gap_blank depth) (by omega))

theorem scanItems_chars : ∀ items : List Value, items ≠ [] → ∀ (depth fuel : Nat)
    (rest gap : List Char), (∀ c ∈ gap, isSpace c = true) →
    2 * ((',' :: s.gap depth).intercalate (itemChars s depth items)).length < fuel →
      scanItems (fuel + 1) ((',' :: s.gap depth).intercalate (itemChars s depth items) ++
        (gap ++ ']' :: rest)) =
      (Node.spelledItems Number.readBack items, .closed, some rest)
  | [], hsome => absurd rfl hsome
  | [v], _ => by
    intro depth fuel rest gap hgap hfuel
    simp only [itemChars, List.intercalate_singleton] at hfuel ⊢
    have hnode := scanNode_chars v depth fuel (gap ++ ']' :: rest) hfuel
      (endsNumber_blanks hgap (by simp))
    exact scanItems_last hnode ((skipSpace_blanks hgap).trans (skipSpace_cons rfl))
  | v :: w :: items, _ => by
    intro depth fuel rest gap hgap hfuel
    rw [itemChars, itemChars, List.intercalate_cons_cons, ← itemChars] at hfuel ⊢
    simp only [List.length_append, List.length_cons] at hfuel
    obtain ⟨fuel, rfl⟩ : ∃ n, fuel = n + 1 := ⟨fuel - 1, by omega⟩
    have hnode := scanNode_chars v depth (fuel + 1) (',' :: (s.gap depth ++
      ((',' :: s.gap depth).intercalate (itemChars s depth (w :: items)) ++ (gap ++ ']' :: rest))))
      (by omega) (endsNumber_comma _)
    have hitems := scanItems_chars (w :: items) (by simp) depth fuel rest gap hgap (by omega)
    have hscan := scanItems_more hnode (s.gap_blank depth)
      (startsPart_items s _ depth w items).append hitems
    rw [List.append_assoc, List.append_assoc]
    exact hscan

theorem scanMembers_chars : ∀ members : List (String × Value), members ≠ [] →
    ∀ (depth fuel : Nat) (rest gap : List Char), (∀ c ∈ gap, isSpace c = true) →
    2 * ((',' :: s.gap depth).intercalate (memberChars s depth members)).length < fuel →
      scanMembers (fuel + 1) ((',' :: s.gap depth).intercalate (memberChars s depth members) ++
        (gap ++ '\x7d' :: rest)) =
      (Node.spelledMembers Number.readBack members, .closed, some rest)
  | [], hsome => absurd rfl hsome
  | [(key, v)], _ => by
    intro depth fuel rest gap hgap hfuel
    simp only [memberChars, List.intercalate_singleton] at hfuel ⊢
    simp only [List.length_append, List.length_cons] at hfuel
    have hnode := scanNode_chars v depth fuel (gap ++ '\x7d' :: rest) (by omega)
      (endsNumber_blanks hgap (by simp))
    have hblanks := (scanNode_blanks fuel s.colon_blank).trans hnode
    have hscan := scanMembers_last key hblanks
      ((skipSpace_blanks hgap).trans (skipSpace_cons rfl))
    rw [List.append_assoc, List.append_assoc]
    exact hscan
  | (key, v) :: (key₁, w) :: members, _ => by
    intro depth fuel rest gap hgap hfuel
    rw [memberChars, memberChars, List.intercalate_cons_cons, ← memberChars] at hfuel ⊢
    simp only [List.length_append, List.length_cons] at hfuel
    obtain ⟨fuel, rfl⟩ : ∃ n, fuel = n + 1 := ⟨fuel - 1, by omega⟩
    have hnode := scanNode_chars v depth (fuel + 1) (',' :: (s.gap depth ++
      ((',' :: s.gap depth).intercalate (memberChars s depth ((key₁, w) :: members)) ++
        (gap ++ '\x7d' :: rest))))
      (by omega) (endsNumber_comma _)
    have hblanks := (scanNode_blanks (fuel + 1) s.colon_blank).trans hnode
    have hmembers := scanMembers_chars ((key₁, w) :: members) (by simp) depth fuel rest gap hgap
      (by omega)
    have hscan := scanMembers_more key hblanks (s.gap_blank depth)
      (startsPart_members s _ depth key₁ w members).append hmembers
    rw [List.append_assoc, List.append_assoc, List.append_assoc, List.append_assoc]
    exact hscan

end

end Scan

/-- A value that is written on one line is read as its tree. -/
theorem ofText_print (v : Value) :
    Document.ofText v.print = ⟨.spelled Number.readBack v, false⟩ := by
  have hscan := scanNode_chars .oneLine v 0 (2 * v.print.toList.length + 2) []
    (by rw [print_toList 0]; omega) (by simp [EndsNumber])
  rw [List.append_nil, ← print_toList 0] at hscan
  simp only [Document.ofText, hscan]
  rfl

/-- So is a value that is written over several lines. -/
theorem ofText_printLines (v : Value) :
    Document.ofText (v.printLines 0) = ⟨.spelled Number.readBack v, false⟩ := by
  have hscan := scanNode_chars .lines v 0 (2 * (v.printLines 0).toList.length + 2) []
    (by rw [printLines_toList 0]; omega) (by simp [EndsNumber])
  rw [List.append_nil, ← printLines_toList 0] at hscan
  simp only [Document.ofText, hscan]
  rfl

end Larder.Json
