import Mathlib.Data.Nat.Digits.Defs
import SchemaClient.Proofs.Client.Effects
import SchemaClient.Proofs.Command.Plain

/-!
# Chains of plain arguments

If the values that a chain is given are plain, its command is, whatever form the values come in:
rows as records or as lists of pairs, counts as numbers, flags or texts.
-/
namespace SchemaClient

open Json (NumberLimit)
open Success (bind_eq_ok)
open Validation (Validated Decoder map2_eq_ok under_eq_ok itemsFrom_eq_ok)
open Value (Plain)

variable {numbers : NumberLimit} {levels : Nat}

namespace Value

theorem Plain.mono {v : Value} (h : v.Plain numbers levels) {more : Nat} (hle : levels ≤ more) :
    v.Plain numbers more := by
  induction h generalizing more with
  | null => exact .null _
  | bool _ b => exact .bool _ b
  | int _ hn => exact .int _ hn
  | text _ s => exact .text _ s
  | emptyList => exact .emptyList _
  | emptyRecord => exact .emptyRecord _
  | list _ ih =>
    obtain ⟨more, rfl⟩ := Nat.exists_eq_add_of_lt hle
    exact .list fun item hitem => ih item hitem (by omega)
  | record hnames _ ih =>
    obtain ⟨more, rfl⟩ := Nat.exists_eq_add_of_lt hle
    exact .record hnames fun entry hentry => ih entry hentry (by omega)

theorem Plain.entries {entries : Record} (h : (Value.record entries).Plain numbers (levels + 1)) :
    ∀ entry ∈ entries, entry.2.Plain numbers levels := by
  cases h with
  | emptyRecord => exact List.forall_mem_nil _
  | record _ h => exact h

/-- The parts of a plain value are plain, and one level further in. -/
theorem Plain.parts {v : Value} (h : v.Plain numbers (levels + 1)) {items : List Value}
    (hitems : v.parts = .ok items) : ∀ item ∈ items, item.Plain numbers levels := by
  cases h with
  | text _ s =>
    cases hitems
    refine List.forall_mem_map.mpr fun c _ => .text _ _
  | emptyList => cases hitems; exact List.forall_mem_nil _
  | emptyRecord => cases hitems; exact List.forall_mem_nil _
  | list h => cases hitems; exact h
  | record _ h => cases hitems; exact List.forall_mem_map.mpr fun _ _ => .text _ _
  | _ => cases hitems

end Value

/-- Mappings whose values are plain. -/
def Mapping.HasPlain (numbers : NumberLimit) (levels : Nat) (entries : Mapping) : Prop :=
  ∀ entry ∈ entries, entry.2.Plain numbers levels

namespace Mapping

variable {entries mapping : Mapping}

theorem HasPlain.put {key value : Value} (h : entries.HasPlain numbers levels)
    (hvalue : value.Plain numbers levels) : (entries.put key value).HasPlain numbers levels := by
  intro entry hentry
  rw [Mapping.put] at hentry
  split at hentry
  · obtain ⟨old, hold, rfl⟩ := List.mem_map.mp hentry
    split
    · exact hvalue
    · exact h old hold
  · rcases List.mem_append.mp hentry with hold | hnew
    · exact h entry hold
    · rw [List.mem_singleton.mp hnew]
      exact hvalue

theorem HasPlain.named {named : Record} (h : mapping.HasPlain numbers levels)
    (hnamed : Decoder.namedEntries mapping = .ok named) :
    ∀ entry ∈ named, entry.2.Plain numbers levels := by
  induction mapping generalizing named with
  | nil => cases hnamed; exact List.forall_mem_nil _
  | cons source rest ih =>
    obtain ⟨hsource, hrest⟩ := List.forall_mem_cons.mp h
    obtain ⟨name, others, -, hothers, rfl⟩ := map2_eq_ok hnamed
    exact List.forall_mem_cons.mpr ⟨hsource, ih hrest hothers⟩

/-- The record of a mapping has the values of the mapping, under names that are each there once. -/
theorem HasPlain.record {record : Record} (h : mapping.HasPlain numbers levels)
    (hrecord : Decoder.mapping mapping = .ok record) :
    (Value.record record).Plain numbers (levels + 1) := by
  obtain ⟨named, hlist, rfl⟩ : ∃ named, Decoder.namedEntries mapping = .ok named ∧
      Entries.ofList named = record := by
    rw [Decoder.mapping] at hrecord
    cases hlist : Decoder.namedEntries mapping with
    | error issues => rw [hlist] at hrecord; cases hrecord
    | ok named =>
      rw [hlist] at hrecord
      cases hrecord
      exact ⟨named, rfl, rfl⟩
  exact .record Entries.nodup_ofList fun entry hentry =>
    h.named hlist entry (Entries.mem_of_mem_ofList hentry)

end Mapping

namespace Chain

theorem plain_addPairs {items : List Value} (hitems : ∀ item ∈ items, item.Plain numbers levels)
    {entries mapping : Mapping} (hentries : entries.HasPlain numbers levels) {position : Nat}
    (h : rowOf.addPairs entries position items = .ok mapping) :
    mapping.HasPlain numbers levels := by
  induction items generalizing entries position with
  | nil => cases h; exact hentries
  | cons item rest ih =>
    obtain ⟨hitem, hrest⟩ := List.forall_mem_cons.mp hitems
    rw [rowOf.addPairs.eq_def] at h
    dsimp only at h
    split at h
    · cases h
    · next key value hparts =>
      split at h
      · cases h
      · have hvalue : value.Plain numbers levels :=
          (hitem.mono (Nat.le_succ levels)).parts (by rw [Value.parts, hparts])
            value (List.mem_cons_of_mem _ List.mem_cons_self)
        exact ih hrest (hentries.put hvalue) h
    · cases h

/-- A row of plain values, in either form. -/
theorem plain_rowOf {v : Value} (hv : v.Plain numbers (levels + 1)) {mapping : Mapping}
    (h : rowOf v = .ok mapping) : mapping.HasPlain numbers levels := by
  unfold rowOf at h
  split at h
  · next entries =>
    cases h
    intro entry hentry
    obtain ⟨source, hsource, rfl⟩ := List.mem_map.mp hentry
    exact hv.entries source hsource
  · obtain ⟨items, hitems, hmapping⟩ := bind_eq_ok.mp h
    exact plain_addPairs (hv.parts hitems) (List.forall_mem_nil _) hmapping

theorem plain_rowsOf {rows : Value} (hrows : rows.Plain numbers (levels + 2))
    {mappings : List Mapping} (h : rowsOf rows = .ok mappings) :
    ∀ mapping ∈ mappings, mapping.HasPlain numbers levels := by
  unfold rowsOf at h
  split at h
  · cases h
    exact List.forall_mem_nil _
  · obtain ⟨items, hitems, hmappings⟩ := bind_eq_ok.mp h
    intro mapping hmapping
    obtain ⟨row, hrow, hread⟩ := Success.exists_step hmappings hmapping
    exact plain_rowOf (hrows.parts hitems row hrow) hread

end Chain

namespace Numeral

theorem digitsValue_lt {digits : List Char} (h : digits.all Char.isDigit) :
    Decimal.digitsValue digits < 10 ^ digits.length := by
  have hfold : ∀ (digits : List Char) (value : Nat), digits.all Char.isDigit →
      digits.foldl (fun value c => 10 * value + (c.toNat - '0'.toNat)) value <
        (value + 1) * 10 ^ digits.length := by
    intro digits
    induction digits with
    | nil => intro value _; simp
    | cons c rest ih =>
      intro value hall
      rw [List.all_cons, Bool.and_eq_true] at hall
      have hdigit : c.toNat - '0'.toNat < 10 := by
        have hmost : c.toNat ≤ 57 := (Char.isDigit_iff_toNat.mp hall.1).2
        have hzero : '0'.toNat = 48 := rfl
        omega
      calc (c :: rest).foldl (fun value c => 10 * value + (c.toNat - '0'.toNat)) value
          < (10 * value + (c.toNat - '0'.toNat) + 1) * 10 ^ rest.length := ih _ hall.2
        _ ≤ (10 * (value + 1)) * 10 ^ rest.length := Nat.mul_le_mul_right _ (by omega)
        _ = (value + 1) * 10 ^ (c :: rest).length := by rw [List.length_cons, Nat.pow_succ]; ring
  simpa [Decimal.digitsValue] using hfold digits 0 h

/-- A whole number that is read from a text has no more digits than are read. -/
theorem length_of_strictInteger {text : List Char} {n : Int} (h : strictInteger text = .ok n) :
    (Nat.repr n.natAbs).length ≤ digitLimit := by
  unfold strictInteger at h
  split at h
  next negative digits _ =>
  dsimp only at h
  split at h
  · cases h
  · next hdigits =>
    split at h
    · cases h
    · split at h
      · cases h
      · next hlength =>
        have hn : n.natAbs = Decimal.digitsValue digits := by
          cases h
          split <;> simp
        rw [Bool.or_eq_true, not_or, Bool.not_eq_true, Bool.not_eq_true,
          Bool.not_eq_false'] at hdigits
        have hne : 0 < digits.length :=
          List.length_pos_of_ne_nil (List.isEmpty_eq_false_iff.mp hdigits.1)
        rw [hn]
        exact (Nat.repr_length _ _ hne (digitsValue_lt hdigits.2)).trans (Nat.not_lt.mp hlength)

theorem length_of_integer {text : String} {n : Int} (h : integer text = .ok n) :
    (Nat.repr n.natAbs).length ≤ digitLimit := by
  unfold integer at h
  split at h
  · next hstrict =>
    cases h
    exact length_of_strictInteger hstrict
  · cases h
  · split at h
    · next hcleaned =>
      cases h
      obtain ⟨cleaned, -, hstrict⟩ := Option.map_eq_some_iff.mp hcleaned
      exact length_of_strictInteger hstrict
    · cases h

end Numeral

/-- Numbers are read that have as many digits as a number in data may have. -/
def Json.NumberLimit.IsGenerous (numbers : NumberLimit) : Prop :=
  ∀ n : Nat, (Nat.repr n).length ≤ Numeral.digitLimit → numbers.Admits n

theorem Validation.Model.jsonLimits_isGenerous :
    Validation.Model.jsonLimits.numbers.IsGenerous := fun _ h => h

/-- A whole number that is read of a plain value can be sent. -/
theorem admits_of_count {v : Value} (hnumbers : numbers.IsGenerous) (hv : v.Plain numbers levels)
    {n : Nat} (h : Decoder.count .values v = .ok n) : numbers.Admits n := by
  unfold Decoder.count at h
  split at h
  · cases h
  · next k hk =>
    split at h
    · next n =>
      cases h
      cases hv with
      | bool _ b => cases b <;> cases hk <;> exact hnumbers _ (by decide)
      | int _ hn => cases hk; exact hn
      | text _ s =>
        have hlength : (Nat.repr (Int.natAbs (Int.ofNat n))).length ≤ Numeral.digitLimit := by
          simp only [Decoder.integer, Decoder.integerOfText] at hk
          split at hk
          · next hread =>
            rw [Except.ok.inj hk] at hread
            exact Numeral.length_of_integer hread
          · cases hk
          · cases hk
        exact hnumbers n hlength
      | _ => cases hk
    · cases h

theorem admits_of_countField {name : String} {v : Value} (hnumbers : numbers.IsGenerous)
    (hv : v.Plain numbers levels) {held : Option Nat} (h : Chain.countField name v = .ok held) :
    ∀ n ∈ held, numbers.Admits n := by
  have hread : Decoder.optional Decoder.count .values v = .ok held := by
    rw [Chain.countField] at h
    cases hread : Decoder.optional Decoder.count .values v with
    | error issues => rw [hread] at h; cases h
    | ok found => rw [hread] at h; cases h; rfl
  rintro n ⟨⟩
  unfold Decoder.optional at hread
  split at hread
  · cases hread
  · cases hcount : Decoder.count .values v with
    | error issues => rw [hcount] at hread; cases hread
    | ok found =>
      rw [hcount] at hread
      cases hread
      exact admits_of_count hnumbers hv hcount

/-- Values that are plain where they belong: each is given with the number of lists and records that
stand around it when a command is sent. -/
def Value.PlainWithin (numbers : NumberLimit) (levels : Nat) (values : List (Nat × Value)) : Prop :=
  ∀ entry ∈ values, entry.2.Plain numbers (levels - entry.1)

namespace Chain

/-- The values that a chain is started with. -/
def Start.values : Start → List (Nat × Value)
  | select _ | delete => []
  | insert (.record entries) _ => [(2, .record entries)]
  | insert _ rows => [(1, rows)]
  | update row => [(1, row)]

/-- The values that a call is given. -/
def Step.values : Step → List (Nat × Value)
  | condition _ operator value => [(3, value.getD operator)]
  | limit n | offset n => [(1, n)]
  | order .. | returning _ => []

variable {table : Table DataType} {chain : Chain}

theorem plain_records {mappings : List Mapping} (h : ∀ mapping ∈ mappings,
    mapping.HasPlain numbers levels) {rows : List Record}
    (hrows : (Decoder.itemsFrom Decoder.mapping 0 mappings).under (.name "rows") = .ok rows) :
    ∀ row ∈ rows, (Value.record row).Plain numbers (levels + 1) := by
  intro row hrow
  obtain ⟨mapping, hmapping, hread⟩ := itemsFrom_eq_ok (under_eq_ok hrows) row hrow
  exact (h mapping hmapping).record hread

theorem plain_insert_start {columns : List Value} {mappings : List Mapping}
    (h : ∀ mapping ∈ mappings, mapping.HasPlain numbers levels)
    (hchain : (do
      let names ← table.checkColumns columns
      let records := (Decoder.itemsFrom Decoder.mapping 0 mappings).under (.name "rows")
      let command ← withRows .insert records fun rows => .insert ⟨table.name, names, rows, none⟩
      pure (⟨table, command⟩ : Chain)) = .ok chain) :
    chain.command.IsPlain numbers (levels + 3) := by
  obtain ⟨names, -, hchain⟩ := bind_eq_ok.mp hchain
  obtain ⟨command, hcommand, hchain⟩ := bind_eq_ok.mp hchain
  obtain ⟨rows, hrows, rfl⟩ := withRows_eq_ok hcommand
  cases hchain
  have hrecords := plain_records h hrows
  exact ⟨List.forall_mem_map.mpr hrecords, List.forall_mem_nil _⟩

/-- A chain that is started with plain values has a plain command. -/
theorem Start.isPlain {start : Start}
    (hvalues : Value.PlainWithin numbers (levels + 3) start.values)
    (h : start.chain table = .ok chain) : chain.command.IsPlain numbers (levels + 3) := by
  cases start with
  | select columns =>
    change Chain.select table columns = .ok chain at h
    unfold Chain.select at h
    split at h
    · cases h
      exact ⟨List.forall_mem_nil _, List.forall_mem_nil _⟩
    · obtain ⟨selected, -, hchain⟩ := bind_eq_ok.mp h
      cases hchain
      exact ⟨List.forall_mem_nil _, List.forall_mem_nil _⟩
  | insert rowOrColumns rows =>
    change Chain.insert table rowOrColumns rows = .ok chain at h
    unfold Chain.insert at h
    split at h
    · next entries =>
      obtain ⟨row, hrow, h⟩ := bind_eq_ok.mp h
      obtain ⟨pair, hpair, h⟩ := bind_eq_ok.mp h
      cases hpair
      have hrecord : (Value.record entries).Plain numbers (levels + 1) :=
        hvalues (2, .record entries) List.mem_cons_self
      exact plain_insert_start (List.forall_mem_singleton.mpr (plain_rowOf hrecord hrow)) h
    · cases h
    · next hrecord _ =>
      obtain ⟨columns, -, h⟩ := bind_eq_ok.mp h
      obtain ⟨mappings, hmappings, h⟩ := bind_eq_ok.mp h
      obtain ⟨pair, hpair, h⟩ := bind_eq_ok.mp h
      cases hpair
      have hrows : rows.Plain numbers (levels + 2) := by
        refine hvalues (1, rows) ?_
        cases rowOrColumns with
        | record entries => exact absurd rfl (hrecord entries)
        | _ => exact List.mem_cons_self
      exact plain_insert_start (plain_rowsOf hrows hmappings) h
  | update row =>
    obtain ⟨names, -, h⟩ := bind_eq_ok.mp h
    obtain ⟨mapping, hmapping, h⟩ := bind_eq_ok.mp h
    obtain ⟨command, hcommand, h⟩ := bind_eq_ok.mp h
    obtain ⟨values, hread, rfl⟩ := withRows_eq_ok hcommand
    cases h
    have hrow : row.Plain numbers (levels + 2) := hvalues (1, row) List.mem_cons_self
    have hrecord := (plain_rowOf hrow hmapping).record (under_eq_ok hread)
    exact ⟨List.forall_mem_singleton.mpr hrecord, List.forall_mem_nil _⟩
  | delete =>
    cases h
    exact ⟨List.forall_mem_nil _, List.forall_mem_nil _⟩

variable {c : Command}

theorem freeValues_of_conditions? {before : Option (List Condition)}
    (h : conditions? c = some before) :
    ∀ entry ∈ Condition.freeValues before, entry ∈ c.freeValues := by
  intro entry hentry
  cases c with
  | insert c => cases h
  | call c => cases h
  | update c => cases h; exact List.mem_cons_of_mem _ hentry
  | _ => cases h; exact hentry

theorem isPlain_withConditions {before : Option (List Condition)} {conditions : List Condition}
    (hc : c.IsPlain numbers levels) (h : conditions? c = some before)
    (hvalues : Value.PlainWithin numbers levels (Condition.freeValues (some conditions))) :
    (withConditions conditions c).IsPlain numbers levels := by
  cases c with
  | insert c => cases h
  | call c => cases h
  | select q => exact ⟨hvalues, hc.counts⟩
  | update c =>
    obtain ⟨hset, -⟩ := List.forall_mem_cons.mp hc.values
    exact ⟨List.forall_mem_cons.mpr ⟨hset, hvalues⟩, hc.counts⟩
  | delete c => exact ⟨hvalues, hc.counts⟩

theorem value_of_ofArguments {column : String} {operator : Value} {value : Option Value}
    {condition : Condition} (h : Condition.ofArguments column operator value = .ok condition) :
    ∀ v ∈ condition.value?, v = value.getD operator := by
  unfold Condition.ofArguments at h
  dsimp only at h
  split at h
  · split at h
    · cases h
      rintro v ⟨⟩
      rfl
    · cases h
  · split at h
    · cases h
      exact nofun
    · cases h
      rintro v ⟨⟩
      rfl

theorem isPlain_withReturning {names : List String} {after : Command}
    (hc : c.IsPlain numbers levels) (h : withReturning names c = some after) :
    after.IsPlain numbers levels := by
  cases c with
  | select q => cases h
  | call c => cases h
  | _ => cases h; exact ⟨hc.values, hc.counts⟩

theorem plainWithin_before {before : Option (List Condition)} (hc : c.IsPlain numbers levels)
    (h : conditions? c = some before) :
    Value.PlainWithin numbers levels (Condition.freeValues (some (before.getD []))) :=
  fun entry hentry => hc.values entry (freeValues_of_conditions? h entry hentry)

theorem plainWithin_added {list : List Condition} {condition : Condition}
    (hlist : Value.PlainWithin numbers levels (Condition.freeValues (some list)))
    (h : ∀ v ∈ condition.value?, v.Plain numbers (levels - 3)) :
    Value.PlainWithin numbers levels (Condition.freeValues (some (list ++ [condition]))) := by
  intro entry hentry
  rw [Condition.freeValues, Option.getD_some, List.filterMap_append, List.mem_append] at hentry
  rcases hentry with hold | hnew
  · exact hlist entry hold
  · obtain ⟨added, hadded, hentry⟩ := List.mem_filterMap.mp hnew
    rw [List.mem_singleton.mp hadded] at hentry
    obtain ⟨v, hv, rfl⟩ := Option.map_eq_some_iff.mp hentry
    exact h v hv

/-- A call with plain values leaves a plain command, whether it fails or not. -/
theorem isPlain_apply (hnumbers : numbers.IsGenerous) {step : Step}
    (hvalues : Value.PlainWithin numbers levels step.values)
    (hc : chain.command.IsPlain numbers levels) :
    (chain.apply step).1.command.IsPlain numbers levels := by
  obtain ⟨after, result, happly, heffect⟩ := acts_apply chain step
  rw [happly]
  cases heffect with
  | failed _ _ => exact hc
  | opened _ hopens =>
    exact isPlain_withConditions hc hopens.absent (plainWithin_before hc hopens.absent)
  | @condition name operator value condition before hbefore _ hcondition =>
    have hvalue : (value.getD operator).Plain numbers (levels - 3) :=
      hvalues (3, value.getD operator) List.mem_cons_self
    refine isPlain_withConditions hc hbefore
      (plainWithin_added (plainWithin_before hc hbefore) fun v hv => ?_)
    rw [value_of_ofArguments hcondition v hv]
    exact hvalue
  | @limit n q limit hselect hread =>
    rw [hselect] at hc
    have hlimit := admits_of_countField hnumbers (hvalues (1, n) List.mem_cons_self) hread
    refine ⟨hc.values, fun k hk => ?_⟩
    rcases List.mem_append.mp hk with hmem | hmem
    · exact hlimit k (Option.mem_toList.mp hmem)
    · exact hc.counts k (List.mem_append_right _ hmem)
  | @offset n q offset hselect hread =>
    rw [hselect] at hc
    have hoffset := admits_of_countField hnumbers (hvalues (1, n) List.mem_cons_self) hread
    refine ⟨hc.values, fun k hk => ?_⟩
    rcases List.mem_append.mp hk with hmem | hmem
    · exact hc.counts k (List.mem_append_left _ hmem)
    · exact hoffset k (Option.mem_toList.mp hmem)
  | order hselect _ =>
    rw [hselect] at hc
    exact ⟨hc.values, hc.counts⟩
  | returning _ hafter => exact isPlain_withReturning hc hafter

theorem isPlain_run (hnumbers : numbers.IsGenerous) {steps : List Step}
    (hvalues : ∀ step ∈ steps, Value.PlainWithin numbers levels step.values)
    (hc : chain.command.IsPlain numbers levels) :
    (chain.run steps).command.IsPlain numbers levels := by
  induction steps generalizing chain with
  | nil => exact hc
  | cons step rest ih =>
    obtain ⟨hstep, hrest⟩ := List.forall_mem_cons.mp hvalues
    exact ih hrest (isPlain_apply hnumbers hstep hc)

end Chain

end SchemaClient
