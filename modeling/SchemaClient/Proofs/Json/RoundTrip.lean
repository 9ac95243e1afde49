import SchemaClient.Proofs.Entries
import SchemaClient.Proofs.Json.Floats
import SchemaClient.Proofs.Json.Strings

/-!
# JSON that is written and read

The text of a JSON value, on one line or on lines of their own, is read back as the value: of one
with finite numbers only, with distinct names in its objects, with numbers that are not too long and
no more levels of arrays and objects than the reader goes into.
-/
namespace SchemaClient.Json

/-- A value of at most so many levels. An empty array or object takes no level. -/
inductive Fits (numbers : NumberLimit) : Nat → Json → Prop where
  | null (levels : Nat) : Fits numbers levels .null
  | bool (levels : Nat) (b : Bool) : Fits numbers levels (.bool b)
  | int (levels : Nat) {n : Int} (h : numbers.Admits n) : Fits numbers levels (.int n)
  | float (levels : Nat) {x : Binary64} (hfinite : x.isFinite) (hroom : numbers.HasRoom) :
    Fits numbers levels (.float x)
  | string (levels : Nat) (s : String) : Fits numbers levels (.string s)
  | emptyArray (levels : Nat) : Fits numbers levels (.array [])
  | emptyObject (levels : Nat) : Fits numbers levels (.object [])
  | array {levels : Nat} {items : List Json} (h : ∀ item ∈ items, Fits numbers levels item) :
    Fits numbers (levels + 1) (.array items)
  | object {levels : Nat} {members : List (String × Json)} (hnames : (Entries.names members).Nodup)
    (h : ∀ entry ∈ members, Fits numbers levels entry.2) :
    Fits numbers (levels + 1) (.object members)

theorem skipGap_append {gap : List Char} (h : ∀ c ∈ gap, isGap c) (text : List Char) :
    skipGap (gap ++ text) = skipGap text := by
  rw [skipGap, List.dropWhile_append_of_pos h, skipGap]

namespace Layout

/-- What stands between a bracket that opens and the first part. -/
def opening : Layout → List Char
  | line => []
  | lines depth => (newline (depth + 1)).toList

/-- What stands between a comma and the next part. -/
def between : Layout → List Char
  | line => [' ']
  | lines depth => (newline (depth + 1)).toList

/-- What stands between the last part and the bracket that closes. -/
def closing : Layout → List Char
  | line => []
  | lines depth => (newline depth).toList

theorem toList_newline (depth : Nat) :
    (newline depth).toList = '\n' :: List.replicate (2 * depth) ' ' := String.toList_ofList

theorem isGap_newline (depth : Nat) : ∀ c ∈ (newline depth).toList, isGap c := by
  rw [toList_newline]
  intro c hc
  rcases List.mem_cons.mp hc with rfl | hblank
  · decide
  · rw [List.eq_of_mem_replicate hblank]
    decide

variable (layout : Layout)

theorem isGap_opening : ∀ c ∈ layout.opening, isGap c := by
  cases layout with
  | line => exact List.forall_mem_nil _
  | lines depth => exact isGap_newline (depth + 1)

theorem isGap_between : ∀ c ∈ layout.between, isGap c := by
  cases layout with
  | line => exact List.forall_mem_singleton.mpr (by decide)
  | lines depth => exact isGap_newline (depth + 1)

theorem isGap_closing : ∀ c ∈ layout.closing, isGap c := by
  cases layout with
  | line => exact List.forall_mem_nil _
  | lines depth => exact isGap_newline depth

/-- Behind the last part there is a bracket or the end of a line. -/
theorem follows_closing {rest : List Char} (h : Follows rest) : Follows (layout.closing ++ rest) := by
  cases layout with
  | line => exact h
  | lines depth =>
    rw [closing, toList_newline]
    exact follows_newline _

/-- Parts with commas between them. -/
def separated (parts : List (List Char)) : List Char :=
  List.intercalate (',' :: layout.between) parts

theorem separated_cons (part : List Char) {parts : List (List Char)} (h : parts ≠ []) :
    layout.separated (part :: parts) =
      part ++ ',' :: (layout.between ++ layout.separated parts) := by
  rw [separated, List.intercalate_cons_of_ne_nil h, List.append_assoc]
  rfl

theorem separated_singleton (part : List Char) : layout.separated [part] = part :=
  List.intercalate_singleton

theorem enclosed_nil (opening closing : String) :
    layout.enclosed opening closing [] = opening ++ closing := if_pos rfl

theorem toList_enclosed {opening closing : String} {parts : List String} (h : parts ≠ []) :
    (layout.enclosed opening closing parts).toList =
      opening.toList ++ (layout.opening ++ layout.separated (parts.map String.toList) ++
        layout.closing) ++ closing.toList := by
  have hfalse : parts.isEmpty = false := List.isEmpty_eq_false_iff.mpr h
  cases layout with
  | line =>
    simp only [enclosed, hfalse, if_neg Bool.false_ne_true, Text.joined, String.toList_append,
      String.toList_intercalate, separated, Layout.opening, Layout.closing, List.nil_append,
      List.append_nil]
    rfl
  | lines depth =>
    simp only [enclosed, hfalse, if_neg Bool.false_ne_true, Text.joined, String.toList_append,
      String.toList_intercalate, separated, Layout.opening, Layout.closing, List.append_assoc]
    rfl

end Layout

/-- The characters of a value in a layout. -/
def chars (layout : Layout) (json : Json) : List Char := (json.write layout).toList

/-- The characters of a name between quotes. -/
def nameChars (name : String) : List Char := '"' :: (name.toList.flatMap escapedChar ++ ['"'])

def memberChars (layout : Layout) (entry : String × Json) : List Char :=
  nameChars entry.1 ++ ':' :: ' ' :: entry.2.chars layout

theorem chars_null (layout : Layout) : Json.null.chars layout = ['n', 'u', 'l', 'l'] := by
  rw [chars, write]
  rfl

theorem chars_false (layout : Layout) :
    (Json.bool false).chars layout = ['f', 'a', 'l', 's', 'e'] := by
  rw [chars, write]
  rfl

theorem chars_true (layout : Layout) : (Json.bool true).chars layout = ['t', 'r', 'u', 'e'] := by
  rw [chars, write]
  rfl

theorem chars_emptyArray (layout : Layout) : (Json.array []).chars layout = ['[', ']'] := by
  rw [chars, write, writeItems, layout.enclosed_nil]
  rfl

theorem chars_emptyObject (layout : Layout) :
    (Json.object []).chars layout = ['\x7b', '\x7d'] := by
  rw [chars, write, writeMembers, layout.enclosed_nil]
  rfl

theorem chars_string (layout : Layout) (s : String) :
    (Json.string s).chars layout = nameChars s := by
  simp [chars, write, quotedText, nameChars]

theorem writeItems_eq (layout : Layout) (items : List Json) :
    (writeItems layout items).map String.toList = items.map (chars layout) := by
  induction items with
  | nil => rfl
  | cons item rest ih => rw [writeItems, List.map_cons, List.map_cons, ih, chars]

theorem writeMembers_eq (layout : Layout) (members : List (String × Json)) :
    (writeMembers layout members).map String.toList = members.map (memberChars layout) := by
  induction members with
  | nil => rfl
  | cons entry rest ih =>
    rw [writeMembers, List.map_cons, List.map_cons, ih]
    simp [memberChars, nameChars, quotedText, chars]

theorem chars_array (layout : Layout) {items : List Json} (h : items ≠ []) :
    (Json.array items).chars layout =
      '[' :: (layout.opening ++ layout.separated (items.map (chars layout.inner)) ++
        layout.closing ++ [']']) := by
  have hne : writeItems layout.inner items ≠ [] := by
    rw [← List.map_eq_nil_iff.ne, writeItems_eq]
    rwa [Ne, List.map_eq_nil_iff]
  rw [chars, write, layout.toList_enclosed hne, writeItems_eq]
  rfl

theorem chars_object (layout : Layout) {members : List (String × Json)} (h : members ≠ []) :
    (Json.object members).chars layout =
      '\x7b' :: (layout.opening ++ layout.separated (members.map (memberChars layout.inner)) ++
        layout.closing ++ ['\x7d']) := by
  have hne : writeMembers layout.inner members ≠ [] := by
    rw [← List.map_eq_nil_iff.ne, writeMembers_eq]
    rwa [Ne, List.map_eq_nil_iff]
  rw [chars, write, layout.toList_enclosed hne, writeMembers_eq]
  rfl

/-- What is no gap, no bracket that closes and no mark of an order of bytes. -/
def isOpener (c : Char) : Bool := !isGap c && c ≠ ']' && c ≠ '\x7d' && c ≠ '\ufeff'

/-- What can start a value or a name. -/
def Opens (text : List Char) : Prop := ∃ c more, text = c :: more ∧ isOpener c

theorem isOpener_digit {c : Char} (h : c.isDigit) : isOpener c := by
  have hne : ∀ d : Char, d.isDigit = false → c ≠ d := by
    rintro d hd rfl
    rw [h] at hd
    cases hd
  simp [isOpener, isGap, hne ' ' rfl, hne '\t' rfl, hne '\n' rfl, hne '\r' rfl, hne ']' rfl,
    hne '\x7d' rfl, hne '\ufeff' rfl]

theorem isOpener_spec {c : Char} (h : isOpener c) :
    isGap c = false ∧ c ≠ ']' ∧ c ≠ '\x7d' ∧ c ≠ '\ufeff' := by
  simpa [isOpener, and_assoc] using h

theorem Opens.append {text : List Char} (h : Opens text) (rest : List Char) :
    Opens (text ++ rest) := by
  obtain ⟨c, more, rfl, hc⟩ := h
  exact ⟨c, more ++ rest, rfl, hc⟩

theorem skipGap_opens {text : List Char} (h : Opens text) : skipGap text = text := by
  obtain ⟨c, more, rfl, hc⟩ := h
  rw [skipGap, List.dropWhile_cons, (isOpener_spec hc).1]
  rfl

theorem Numeric.opens {text : List Char} (h : Numeric text) : Opens text := by
  obtain ⟨c, more, htext, hc, -⟩ := h
  refine ⟨c, more, htext, ?_⟩
  rcases hc with rfl | hc
  · decide
  · exact isOpener_digit hc

theorem opens_nameChars (name : String) : Opens (nameChars name) :=
  ⟨'"', _, rfl, by decide⟩

theorem opens_memberChars (layout : Layout) (entry : String × Json) :
    Opens (memberChars layout entry) :=
  (opens_nameChars entry.1).append _

theorem opens_chars {numbers : NumberLimit} {levels : Nat} {json : Json} (layout : Layout)
    (h : Fits numbers levels json) : Opens (json.chars layout) := by
  cases h with
  | null => exact ⟨'n', _, chars_null layout, by decide⟩
  | bool _ b =>
    cases b with
    | false => exact ⟨'f', _, chars_false layout, by decide⟩
    | true => exact ⟨'t', _, chars_true layout, by decide⟩
  | @int _ n => exact (numeric_int n).opens
  | float _ hfinite => exact (numeric_float hfinite).opens
  | string _ s =>
    rw [chars_string]
    exact opens_nameChars s
  | emptyArray => exact ⟨'[', _, chars_emptyArray layout, by decide⟩
  | emptyObject => exact ⟨'\x7b', _, chars_emptyObject layout, by decide⟩
  | @array _ items =>
    cases items with
    | nil => exact ⟨'[', _, chars_emptyArray layout, by decide⟩
    | cons item rest =>
      rw [chars_array layout (List.cons_ne_nil item rest)]
      exact ⟨'[', _, rfl, by decide⟩
  | @object _ members =>
    cases members with
    | nil => exact ⟨'\x7b', _, chars_emptyObject layout, by decide⟩
    | cons entry rest =>
      rw [chars_object layout (List.cons_ne_nil entry rest)]
      exact ⟨'\x7b', _, rfl, by decide⟩

theorem opens_separated (layout : Layout) {part : List Char} (h : Opens part)
    (parts : List (List Char)) : Opens (layout.separated (part :: parts)) := by
  cases parts with
  | nil =>
    rw [Layout.separated_singleton]
    exact h
  | cons second parts =>
    rw [Layout.separated_cons layout part (List.cons_ne_nil second parts)]
    exact h.append _

variable {limits : Limits} {levels : Nat} {layout : Layout}

/-- A value that is read back wherever it stands, as long as there is fuel for its length. -/
def ReadsBack (limits : Limits) (levels : Nat) (layout : Layout) (json : Json) : Prop :=
  ∀ fuel rest, 2 * (json.chars layout).length ≤ fuel → Follows rest →
    readValue limits levels fuel (json.chars layout ++ rest) = .ok (json, rest)

/-- What starts neither a string nor an array nor an object is a word or a number. -/
theorem readValue_scalar {c : Char} (hquote : c ≠ '"') (hbracket : c ≠ '[') (hbrace : c ≠ '\x7b')
    (fuel : Nat) (text : List Char) :
    readValue limits levels (fuel + 1) (c :: text) =
      ((readWord? (c :: text)).map .ok).getD (readNumber limits (c :: text)) := by
  rw [readValue]
  · cases readWord? (c :: text) <;> rfl
  · exact List.cons_ne_nil c text
  · intro rest h
    exact hquote (List.cons.inj h).1
  · intro rest h
    exact hbracket (List.cons.inj h).1
  · intro rest h
    exact hbrace (List.cons.inj h).1

theorem readsBack_number {json : Json} (hhead : Numeric (json.chars layout))
    (h : ∀ rest, Follows rest →
      readNumber limits (json.chars layout ++ rest) = .ok (json, rest)) :
    ReadsBack limits levels layout json := by
  intro fuel rest hfuel hrest
  obtain ⟨c, more, htext, hc, hword⟩ := hhead
  have hnumber := h rest hrest
  specialize hword rest
  rw [htext] at hfuel
  rw [htext, List.cons_append] at hword hnumber ⊢
  cases fuel with
  | zero => simp at hfuel
  | succ fuel =>
    have hquote : c ≠ '"' := by rintro rfl; rcases hc with hc | hc <;> cases hc
    have hbracket : c ≠ '[' := by rintro rfl; rcases hc with hc | hc <;> cases hc
    have hbrace : c ≠ '\x7b' := by rintro rfl; rcases hc with hc | hc <;> cases hc
    rw [readValue_scalar hquote hbracket hbrace, hword]
    exact hnumber

theorem readsBack_string (s : String) : ReadsBack limits levels layout (.string s) := by
  intro fuel rest hfuel _
  rw [chars_string] at hfuel ⊢
  cases fuel with
  | zero => simp [nameChars] at hfuel
  | succ fuel =>
    rw [nameChars, List.cons_append, List.append_assoc, List.singleton_append, readValue]
    exact readString_written s (string?_toNat limits s)

/-- Behind the last part the gap is skipped. -/
theorem skipGap_closing (outer : Layout) {bracket : Char} (h : isGap bracket = false)
    (rest : List Char) : skipGap (outer.closing ++ bracket :: rest) = bracket :: rest := by
  rw [skipGap_append outer.isGap_closing, skipGap, List.dropWhile_cons, h]
  rfl

/-- The items of an array are read back one after the other, up to the bracket behind them. -/
theorem readItems_separated (outer : Layout) {items : List Json} (hne : items ≠ [])
    (hopens : ∀ item ∈ items, Opens (item.chars layout))
    (h : ∀ item ∈ items, ReadsBack limits levels layout item) (fuel : Nat) (rest : List Char)
    (hfuel : 2 * (outer.separated (items.map (chars layout))).length + 1 ≤ fuel) :
    readItems limits levels fuel
      (outer.separated (items.map (chars layout)) ++ (outer.closing ++ ']' :: rest)) =
        .ok (items, rest) := by
  induction items generalizing fuel with
  | nil => exact absurd rfl hne
  | cons item items ih =>
    obtain ⟨fuel, rfl⟩ : ∃ more, fuel = more + 1 := ⟨fuel - 1, by omega⟩
    have hitem := h item List.mem_cons_self
    cases items with
    | nil =>
      rw [List.map_singleton, Layout.separated_singleton] at hfuel ⊢
      rw [readItems,
        hitem fuel _ (by omega) (outer.follows_closing (follows_bracket rest))]
      simp only [bind, Except.bind, skipGap_closing outer (by decide : isGap ']' = false)]
    | cons second others =>
      have hopen : Opens (outer.separated ((second :: others).map (chars layout))) :=
        opens_separated outer (hopens second (by simp)) _
      rw [List.map_cons, outer.separated_cons _ (by simp), List.length_append, List.length_cons,
        List.length_append] at hfuel
      -- One call is left behind for the item, so the fuel for the others is one less.
      have hothers := ih (List.cons_ne_nil second others)
        (fun item hmem => hopens item (List.mem_cons_of_mem _ hmem))
        (fun item hmem => h item (List.mem_cons_of_mem _ hmem)) fuel (by omega)
      rw [List.map_cons, outer.separated_cons _ (by simp), List.append_assoc, List.cons_append,
        List.append_assoc, readItems, hitem fuel _ (by omega) (follows_comma _)]
      have hcomma : ∀ text, skipGap (',' :: text) = ',' :: text := fun _ => rfl
      simp only [bind, Except.bind, hcomma, skipGap_append outer.isGap_between,
        skipGap_opens (hopen.append _), hothers]

theorem withMember_new {before : List (String × Json)} {name : String}
    (h : name ∉ Entries.names before) (json : Json) :
    withMember (.object before) (some name) json = .object (before ++ [(name, json)]) := by
  rw [withMember, Entries.put_new h]

/-- What is read behind a member, when an object has been read so far. -/
def afterMember (limits : Limits) (levels fuel : Nat) (object : Json) (rest : List Char) :
    Except Failure (Json × List Char) :=
  match skipGap rest with
  | '\x7d' :: after => .ok (object, after)
  | ',' :: next => readMembers limits levels fuel object (skipGap next)
  | other => failAt .expectingComma other

/-- A member is read in front of what follows it: its name, its colon and its value. -/
theorem readMembers_memberChars {entry : String × Json} {before : List (String × Json)}
    (hname : entry.1 ∉ Entries.names before) (hopens : Opens (entry.2.chars layout))
    (h : ReadsBack limits levels layout entry.2) {fuel : Nat} {rest : List Char}
    (hfuel : 2 * (memberChars layout entry).length ≤ fuel) (hrest : Follows rest) :
    readMembers limits levels (fuel + 1) (.object before) (memberChars layout entry ++ rest) =
      afterMember limits levels fuel (.object (before ++ [entry])) rest := by
  have hvalue : 2 * (entry.2.chars layout).length ≤ fuel := by
    rw [memberChars, List.length_append, List.length_cons, List.length_cons] at hfuel
    omega
  have hcolon : ∀ text, skipGap (':' :: text) = ':' :: text := fun _ => rfl
  have hblank : ∀ text, skipGap (' ' :: text) = skipGap text := fun _ => rfl
  rw [memberChars, nameChars, List.append_assoc, List.cons_append, List.append_assoc,
    List.singleton_append, List.cons_append, List.cons_append, readMembers]
  simp only [bind, Except.bind, readString_written _ (name?_toNat limits entry.1), hcolon,
    hblank, skipGap_opens (hopens.append rest), h fuel rest hvalue hrest,
    withMember_new hname]
  rfl

/-- The members of an object are read back one after the other, up to the brace behind them. -/
theorem readMembers_separated (outer : Layout) {members : List (String × Json)}
    (hne : members ≠ []) (hopens : ∀ entry ∈ members, Opens (entry.2.chars layout))
    (h : ∀ entry ∈ members, ReadsBack limits levels layout entry.2)
    (before : List (String × Json)) (hnames : (Entries.names (before ++ members)).Nodup)
    (fuel : Nat) (rest : List Char)
    (hfuel : 2 * (outer.separated (members.map (memberChars layout))).length + 1 ≤ fuel) :
    readMembers limits levels fuel (.object before)
      (outer.separated (members.map (memberChars layout)) ++ (outer.closing ++ '\x7d' :: rest)) =
        .ok (.object (before ++ members), rest) := by
  induction members generalizing fuel before with
  | nil => exact absurd rfl hne
  | cons entry members ih =>
    obtain ⟨fuel, rfl⟩ : ∃ more, fuel = more + 1 := ⟨fuel - 1, by omega⟩
    have hentry := h entry List.mem_cons_self
    have hopen := hopens entry List.mem_cons_self
    have hname : entry.1 ∉ Entries.names before := by
      rw [Entries.names, List.map_append, List.nodup_append] at hnames
      intro hmem
      exact hnames.2.2 entry.1 hmem entry.1 (by simp) rfl
    cases members with
    | nil =>
      rw [List.map_singleton, Layout.separated_singleton] at hfuel ⊢
      rw [readMembers_memberChars hname hopen hentry (by omega)
        (outer.follows_closing (follows_brace rest)), afterMember,
        skipGap_closing outer (by decide)]
      rfl
    | cons second others =>
      have hothers : Opens (outer.separated ((second :: others).map (memberChars layout))) :=
        opens_separated outer (opens_memberChars layout second) _
      rw [List.map_cons, outer.separated_cons _ (by simp), List.length_append, List.length_cons,
        List.length_append] at hfuel
      have hnext := ih (List.cons_ne_nil second others)
        (fun entry hmem => hopens entry (List.mem_cons_of_mem _ hmem))
        (fun entry hmem => h entry (List.mem_cons_of_mem _ hmem)) (before ++ [entry])
        (by rwa [List.append_assoc, List.singleton_append]) fuel (by omega)
      rw [List.append_assoc, List.singleton_append] at hnext
      have hcomma : ∀ text, skipGap (',' :: text) = ',' :: text := fun _ => rfl
      rw [List.map_cons, outer.separated_cons _ (by simp), List.append_assoc, List.cons_append,
        List.append_assoc,
        readMembers_memberChars hname hopen hentry (by omega) (follows_comma _)]
      simp only [afterMember, hcomma, skipGap_append outer.isGap_between,
        skipGap_opens (hothers.append _), hnext]

/-- Where an array opens, what opens a value behind a gap is no end of it. -/
theorem readValue_array {gap text : List Char} (hgap : ∀ c ∈ gap, isGap c) (h : Opens text)
    (fuel : Nat) :
    readValue limits (levels + 1) (fuel + 1) ('[' :: (gap ++ text)) =
      (readItems limits levels fuel text).map fun (items, after) => (.array items, after) := by
  rw [readValue, skipGap_append hgap, skipGap_opens h]
  obtain ⟨c, more, rfl, hc⟩ := h
  simp [(isOpener_spec hc).2.1]

theorem readValue_object {gap text : List Char} (hgap : ∀ c ∈ gap, isGap c) (h : Opens text)
    (fuel : Nat) :
    readValue limits (levels + 1) (fuel + 1) ('\x7b' :: (gap ++ text)) =
      readMembers limits levels fuel (.object []) text := by
  rw [readValue, skipGap_append hgap, skipGap_opens h]
  obtain ⟨c, more, rfl, hc⟩ := h
  simp [(isOpener_spec hc).2.2.1]

theorem readsBack_emptyArray : ReadsBack limits levels layout (.array []) := by
  intro fuel rest hfuel _
  rw [chars_emptyArray] at hfuel ⊢
  cases fuel with
  | zero => cases hfuel
  | succ fuel => rfl

theorem readsBack_emptyObject : ReadsBack limits levels layout (.object []) := by
  intro fuel rest hfuel _
  rw [chars_emptyObject] at hfuel ⊢
  cases fuel with
  | zero => cases hfuel
  | succ fuel => rfl

theorem readsBack_array {items : List Json}
    (hopens : ∀ item ∈ items, Opens (item.chars layout.inner))
    (h : ∀ item ∈ items, ReadsBack limits levels layout.inner item) :
    ReadsBack limits (levels + 1) layout (.array items) := by
  cases items with
  | nil => exact readsBack_emptyArray
  | cons item items =>
    intro fuel rest hfuel _
    have hopen : Opens (layout.separated ((item :: items).map (chars layout.inner))) :=
      opens_separated layout (hopens item List.mem_cons_self) _
    rw [chars_array layout (List.cons_ne_nil item items)] at hfuel ⊢
    simp only [List.length_cons, List.length_append, List.length_nil] at hfuel
    obtain ⟨fuel, rfl⟩ : ∃ more, fuel = more + 1 := ⟨fuel - 1, by omega⟩
    simp only [List.cons_append, List.append_assoc, List.nil_append]
    rw [readValue_array layout.isGap_opening (hopen.append _),
      readItems_separated layout (List.cons_ne_nil item items) hopens h fuel rest (by omega)]
    rfl

theorem readsBack_object {members : List (String × Json)}
    (hnames : (Entries.names members).Nodup)
    (hopens : ∀ entry ∈ members, Opens (entry.2.chars layout.inner))
    (h : ∀ entry ∈ members, ReadsBack limits levels layout.inner entry.2) :
    ReadsBack limits (levels + 1) layout (.object members) := by
  cases members with
  | nil => exact readsBack_emptyObject
  | cons entry members =>
    intro fuel rest hfuel _
    have hopen : Opens (layout.separated ((entry :: members).map (memberChars layout.inner))) :=
      opens_separated layout (opens_memberChars layout.inner entry) _
    rw [chars_object layout (List.cons_ne_nil entry members)] at hfuel ⊢
    simp only [List.length_cons, List.length_append, List.length_nil] at hfuel
    obtain ⟨fuel, rfl⟩ : ∃ more, fuel = more + 1 := ⟨fuel - 1, by omega⟩
    simp only [List.cons_append, List.append_assoc, List.nil_append]
    rw [readValue_object layout.isGap_opening (hopen.append _),
      readMembers_separated layout (List.cons_ne_nil entry members) hopens h [] hnames fuel rest
        (by omega), List.nil_append]

theorem readsBack_null : ReadsBack limits levels layout .null := by
  intro fuel rest hfuel _
  rw [chars_null] at hfuel ⊢
  cases fuel with
  | zero => cases hfuel
  | succ fuel =>
    exact readValue_scalar (by decide) (by decide) (by decide) fuel ('u' :: 'l' :: 'l' :: rest)

theorem readsBack_bool (b : Bool) : ReadsBack limits levels layout (.bool b) := by
  intro fuel rest hfuel _
  cases b with
  | false =>
    rw [chars_false] at hfuel ⊢
    cases fuel with
    | zero => cases hfuel
    | succ fuel =>
      exact readValue_scalar (by decide) (by decide) (by decide) fuel
        ('a' :: 'l' :: 's' :: 'e' :: rest)
  | true =>
    rw [chars_true] at hfuel ⊢
    cases fuel with
    | zero => cases hfuel
    | succ fuel =>
      exact readValue_scalar (by decide) (by decide) (by decide) fuel ('r' :: 'u' :: 'e' :: rest)

theorem readsBack_of_fits {json : Json} (h : Fits limits.numbers levels json) (layout : Layout) :
    ReadsBack limits levels layout json := by
  -- Over the nesting: a level of an array or object is one of those the reader may still open.
  induction h generalizing layout with
  | null => exact readsBack_null
  | bool _ b => exact readsBack_bool b
  | @int _ n hn => exact readsBack_number (numeric_int n) fun _ => readNumber_int hn
  | float _ hfinite hroom =>
    exact readsBack_number (numeric_float hfinite) fun _ => readNumber_float hfinite hroom
  | string _ s => exact readsBack_string s
  | emptyArray => exact readsBack_emptyArray
  | emptyObject => exact readsBack_emptyObject
  | array hitems ih =>
    exact readsBack_array (fun item hmem => opens_chars layout.inner (hitems item hmem))
      fun item hmem => ih item hmem layout.inner
  | object hnames hmembers ih =>
    exact readsBack_object hnames (fun entry hmem => opens_chars layout.inner (hmembers entry hmem))
      fun entry hmem => ih entry hmem layout.inner

/-- A value within the limits is what its text is read as, in any layout and with any number of
empty lines behind it. -/
theorem read_write {json : Json} (h : Fits limits.numbers limits.levels json) (layout : Layout)
    (ending : String) (hending : ∀ c ∈ ending.toList, c = '\n') :
    read limits (json.write layout ++ ending) = .ok json := by
  have hopens := opens_chars layout h
  have hfollows : Follows ending.toList := fun c hc =>
    .inr (.inr (.inr (hending c (List.mem_of_mem_head? hc))))
  have hchars : (json.write layout ++ ending).toList = json.chars layout ++ ending.toList :=
    String.toList_append
  have hread := readsBack_of_fits h layout
    (2 * (json.chars layout ++ ending.toList).length + 2) ending.toList
    (by rw [List.length_append]; omega) hfollows
  have hmark : (json.chars layout ++ ending.toList).head? ≠ some '\ufeff' := by
    obtain ⟨c, more, htext, hc⟩ := hopens
    rw [htext, List.cons_append, List.head?_cons, Ne, Option.some.injEq]
    exact (isOpener_spec hc).2.2.2
  have hrest : skipGap ending.toList = [] := by
    have hgap : ∀ c ∈ ending.toList, isGap c := by
      intro c hc
      rw [hending c hc]
      decide
    have hall := skipGap_append hgap []
    rwa [List.append_nil] at hall
  rw [read]
  simp only [hchars, if_neg hmark, skipGap_opens (hopens.append _), hread, bind, Except.bind, hrest]

/-- A value within the limits is what its text on one line is read as. -/
theorem read_compact {json : Json} (h : Fits limits.numbers limits.levels json) :
    read limits json.compact = .ok json := by
  have hread := read_write h .line "" (List.forall_mem_nil _)
  rwa [String.append_empty] at hread

end SchemaClient.Json
