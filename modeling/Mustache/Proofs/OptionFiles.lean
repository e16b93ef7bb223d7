import Mathlib.Data.List.Basic
import Mustache.Proofs.ParserStates
import Mustache.Proofs.Sorting
import Mustache.Proofs.Words

/-!
Which documents are options. A mapping is, if it has no keys but the two names and under each of
them what belongs there. Besides, everything that counts as false stands for the standard options,
not only a document without content. All else is refused, and with an error about the options
unless a key that is no name is not a text either.
-/

namespace Mustache

/-! Keys. -/

namespace Value

theorem text_same {a : Value} {text : Text} (same : sameKey (.str text) a = true) :
    a = .str text := by
  cases a with
  | str s => simpa [sameKey, sameAtom, eq_comm] using same
  | _ => simp [sameKey, sameAtom, number?] at same

def takeUp (kept : List Value) (v : Value) : List Value :=
  if kept.any (sameKey · v) then kept else v :: kept

theorem distinct_eq (values : List Value) :
    distinct values = (values.foldl takeUp []).reverse := rfl

theorem kept_take_up {kept : List Value} {w : Value} (here : w ∈ kept) (values : List Value) :
    w ∈ values.foldl takeUp kept := by
  induction values generalizing kept with
  | nil => exact here
  | cons v rest ih =>
      apply ih
      unfold takeUp
      split
      · exact here
      · exact List.mem_cons_of_mem v here

theorem mem_taken_up {kept values : List Value} {w : Value}
    (member : w ∈ values.foldl takeUp kept) : w ∈ kept ∨ w ∈ values := by
  induction values generalizing kept with
  | nil => exact .inl member
  | cons v rest ih =>
      rcases ih member with here | later
      · unfold takeUp at here
        split at here
        · exact .inl here
        · rcases List.mem_cons.mp here with rfl | here
          · exact .inr List.mem_cons_self
          · exact .inl here
      · exact .inr (List.mem_cons_of_mem v later)

theorem mem_of_distinct {values : List Value} {v : Value} (member : v ∈ distinct values) :
    v ∈ values := by
  rw [distinct_eq, List.mem_reverse] at member
  exact (mem_taken_up member).resolve_left List.not_mem_nil

theorem taken_up_covers {kept values : List Value} {v : Value} (member : v ∈ values) :
    ∃ w ∈ values.foldl takeUp kept, w = v ∨ sameKey w v = true := by
  induction values generalizing kept with
  | nil => cases member
  | cons first rest ih =>
      rcases List.mem_cons.mp member with rfl | later
      · by_cases known : kept.any (sameKey · v) = true
        · obtain ⟨w, here, same⟩ := List.any_eq_true.mp known
          refine ⟨w, ?_, .inr same⟩
          rw [List.foldl_cons, takeUp, if_pos known]
          exact kept_take_up here rest
        · refine ⟨v, ?_, .inl rfl⟩
          rw [List.foldl_cons, takeUp, if_neg known]
          exact kept_take_up List.mem_cons_self rest
      · exact ih later

theorem distinct_covers {values : List Value} {v : Value} (member : v ∈ values) :
    ∃ w ∈ distinct values, w = v ∨ sameKey w v = true := by
  have covered : ∃ w ∈ values.foldl takeUp [], w = v ∨ sameKey w v = true := taken_up_covers member
  obtain ⟨w, here, same⟩ := covered
  exact ⟨w, List.mem_reverse.mpr here, same⟩

theorem other_distinct {values : List Value} {v : Value} (member : v ∈ values)
    (other : ∀ text, v ≠ .str text) : ∃ w ∈ distinct values, ∀ text, w ≠ .str text := by
  obtain ⟨w, here, rfl | same⟩ := distinct_covers member
  · exact ⟨w, here, other⟩
  · refine ⟨w, here, ?_⟩
    rintro text rfl
    exact other text (text_same same)

inductive Scalar : Value → Prop
  | null : Scalar .null
  | bool (b : Bool) : Scalar (.bool b)
  | int (n : Int) : Scalar (.int n)
  | float (x : Binary64) : Scalar (.float x)
  | text (text : Text) : Scalar (.str text)
  | bytes (content : List UInt8) : Scalar (.bytes false content)
  | moment (m : Moment) : Scalar (.moment m)

/-- What a document may hold. -/
inductive Loaded : Value → Prop
  | scalar {v : Value} : Scalar v → Loaded v
  | list {items : List Value} : (∀ item ∈ items, Loaded item) → Loaded (.sequence .list items)
  | mapping {entries : List (Value × Value)} : (∀ entry ∈ entries, Scalar entry.1) →
      (∀ entry ∈ entries, Loaded entry.2) → Loaded (.mapping .dict none entries)

theorem scalars_unchangeable {values : List Value} (scalars : ∀ v ∈ values, Scalar v) :
    firstChangeable? values = none := by
  induction values with
  | nil => rfl
  | cons v rest ih =>
      obtain ⟨here, later⟩ := List.forall_mem_cons.mp scalars
      have fixed : v.changeable? = none := by cases here <;> rfl
      rw [firstChangeable?, fixed, ih later]
      rfl

end Value

namespace Options
open Value
variable {host : Host} {entries : List (Value × Value)}

def unknownKeys (entries : List (Value × Value)) : List Value :=
  (distinct (entries.map (·.1))).filter fun key =>
    !isName flagName key && !isName delimitersName key

theorem is_name_iff {name : Text} {v : Value} : isName name v = true ↔ v = .str name := by
  cases v <;> simp [isName]

theorem known_iff :
    unknownKeys entries = [] ↔
      ∀ entry ∈ entries, entry.1 = .str flagName ∨ entry.1 = .str delimitersName := by
  have named (v : Value) : (!isName flagName v && !isName delimitersName v) = true ↔
      ¬ (v = .str flagName ∨ v = .str delimitersName) := by
    rw [← is_name_iff, ← is_name_iff]
    simp
  simp only [unknownKeys, List.filter_eq_nil_iff, named, not_not]
  constructor
  · intro known entry member
    obtain ⟨w, here, same⟩ := distinct_covers (List.mem_map_of_mem (f := (·.1)) member)
    have kept (name : Text) (taken : w = .str name) : entry.1 = .str name := by
      subst taken
      exact same.elim Eq.symm text_same
    exact (known w here).imp (kept flagName) (kept delimitersName)
  · intro known key here
    obtain ⟨entry, member, rfl⟩ := List.mem_map.mp (mem_of_distinct here)
    exact known entry member

/-- Some key is not a text. -/
def HasOtherKey (entries : List (Value × Value)) : Prop :=
  ∃ entry ∈ entries, ∀ text, entry.1 ≠ .str text

theorem other_key_iff : HasOtherKey entries ↔ ∃ v ∈ unknownKeys entries, ∀ text, v ≠ .str text := by
  constructor
  · rintro ⟨entry, member, other⟩
    obtain ⟨w, here, other'⟩ := other_distinct (List.mem_map_of_mem (f := (·.1)) member) other
    refine ⟨w, List.mem_filter.mpr ⟨here, ?_⟩, other'⟩
    rw [Bool.and_eq_true, Bool.not_eq_true', Bool.not_eq_true']
    constructor
    · exact Bool.eq_false_iff.mpr fun named => other' _ (is_name_iff.mp named)
    · exact Bool.eq_false_iff.mpr fun named => other' _ (is_name_iff.mp named)
  · rintro ⟨v, here, other⟩
    obtain ⟨entry, member, rfl⟩ := List.mem_map.mp (mem_of_distinct (List.mem_filter.mp here).1)
    exact ⟨entry, member, other⟩

/-! Unknown keys are refused. -/

theorem texts_iff {values : List Value} {texts : List Text} :
    values.mapM text? = some texts ↔ values = texts.map Value.str := by
  induction values generalizing texts with
  | nil => cases texts <;> simp
  | cons v rest ih =>
      rw [List.mapM_cons]
      cases v with
      | str text => cases texts <;> simp [text?, Option.bind_eq_some_iff, ih, and_comm]
      | _ => cases texts <;> simp [text?]

theorem all_texts {values : List Value} (texts : ∀ v ∈ values, ∃ text, v = .str text) :
    ∃ names : List Text, values = names.map Value.str := by
  induction values with
  | nil => exact ⟨[], rfl⟩
  | cons v rest ih =>
      obtain ⟨⟨text, rfl⟩, later⟩ := List.forall_mem_cons.mp texts
      obtain ⟨names, rfl⟩ := ih later
      exact ⟨text :: names, rfl⟩

theorem not_text_kind (index : Nat) (names : List Value) :
    (refuseNames.notText index names).kind = .type := by
  fun_induction refuseNames.notText index names with
  | case1 index text rest ih => exact ih
  | case2 => rfl
  | case3 => rfl

theorem refuse_texts {unknown : List Value} (texts : ∀ v ∈ unknown, ∃ text, v = .str text) :
    ∃ names : List Text, refuseNames unknown = .config (.unknownOptions names) ∧
      (names.map Value.str).Perm unknown := by
  obtain ⟨result, sorted⟩ := texts_sorted texts
  have moved := Sorting.sort_perm sorted
  obtain ⟨names, rfl⟩ := all_texts fun v member => texts v (moved.mem_iff.mp member)
  refine ⟨names, ?_, moved⟩
  rw [refuseNames, sorted]
  dsimp only
  rw [texts_iff.mpr rfl]

theorem refuse_other {unknown : List Value} (other : ∃ v ∈ unknown, ∀ text, v ≠ .str text) :
    ∃ error, refuseNames unknown = .host error ∧ error.kind = .type := by
  unfold refuseNames
  cases sorted : Value.sorted unknown with
  | error error => exact ⟨error, rfl, sorted_fails sorted⟩
  | ok result =>
      dsimp only
      cases texts : result.mapM text? with
      | none => exact ⟨_, rfl, not_text_kind 0 result⟩
      | some names =>
          obtain ⟨v, member, no_text⟩ := other
          have here := (Sorting.sort_perm sorted).mem_iff.mpr member
          rw [texts_iff.mp texts] at here
          obtain ⟨text, -, rfl⟩ := List.mem_map.mp here
          exact absurd rfl (no_text text)

/-! Settings. -/

/-- What is set under a name, if anything is; otherwise it is as usual. -/
def Sets {α : Type} (entries : List (Value × Value)) (name : Text) (means : Value → α → Prop)
    (usual set : α) : Prop :=
  (∃ v, Value.find? name entries = some v ∧ means v set) ∨
    Value.find? name entries = none ∧ set = usual

section Setting
variable {α : Type} {name : Text} {read : Value → Except ConfigError α} {usual : α}

theorem setting_of_some {v : Value} (found : Value.find? name entries = some v) :
    ofMapping.setting host (.mapping .dict none entries) name read usual =
      (read v).mapError .config := by
  have kept : setting? host (.mapping .dict none entries) name = .ok (some v) :=
    congrArg Except.ok found
  rw [ofMapping.setting, kept]

theorem setting_of_none (absent : Value.find? name entries = none) :
    ofMapping.setting host (.mapping .dict none entries) name read usual = .ok usual := by
  have kept : setting? host (.mapping .dict none entries) name = .ok none :=
    congrArg Except.ok absent
  rw [ofMapping.setting, kept]

theorem setting_ok_iff {means : Value → α → Prop} {set : α}
    (reads : ∀ v, Value.find? name entries = some v → (read v = .ok set ↔ means v set)) :
    ofMapping.setting host (.mapping .dict none entries) name read usual = .ok set ↔
      Sets entries name means usual set := by
  unfold Sets
  cases found : Value.find? name entries with
  | none =>
      rw [setting_of_none found]
      simp [eq_comm]
  | some v =>
      rw [setting_of_some found]
      simp only [Option.some.injEq, exists_eq_left', reduceCtorEq, false_and, or_false]
      rw [← reads v found]
      cases read v <;> simp [Except.mapError]

theorem setting_fails {error : OptionsError}
    (failed : ofMapping.setting host (.mapping .dict none entries) name read usual = .error error) :
    ∃ wrong, error = .config wrong := by
  cases found : Value.find? name entries with
  | none =>
      rw [setting_of_none found] at failed
      cases failed
  | some v =>
      rw [setting_of_some found] at failed
      cases ran : read v with
      | ok set =>
          rw [ran] at failed
          cases failed
      | error wrong =>
          rw [ran] at failed
          cases failed
          exact ⟨wrong, rfl⟩

end Setting

theorem read_flag_iff {v : Value} {flag : Bool} : readFlag v = .ok flag ↔ v = .bool flag := by
  cases v <;> simp [readFlag]

inductive PairOf : Value → Delimiters → Prop
  | words {text opening closing : Text} :
      text.TwoWords opening closing → PairOf (.str text) ⟨opening, closing⟩
  | list {opening closing : Text} : ¬ opening.Blank → ¬ closing.Blank →
      PairOf (.sequence .list [.str opening, .str closing]) ⟨opening, closing⟩

theorem blank_iff {text : Text} : text.isBlank = true ↔ text.Blank := List.all_eq_true

theorem pair_ok_iff {whole : Value} {parts : List Value} {d : Delimiters} :
    readDelimiters.pair host whole parts = .ok d ↔
      parts = [.str d.opening, .str d.closing] ∧ ¬ d.opening.Blank ∧ ¬ d.closing.Blank := by
  unfold readDelimiters.pair
  split
  · next opening closing =>
      simp only [blank_iff]
      split
      · next blank =>
          constructor
          · intro failed
            cases failed
          · rintro ⟨same, visible, visible'⟩
            cases same
            exact absurd blank (not_or.mpr ⟨visible, visible'⟩)
      · next visible =>
          constructor
          · rintro ⟨⟩
            exact ⟨rfl, not_or.mp visible⟩
          · rintro ⟨same, -, -⟩
            cases same
            rfl
  · next other =>
      constructor
      · intro failed
        cases failed
      · rintro ⟨rfl, -, -⟩
        exact absurd rfl (other _ _)

theorem words_pair {text : Text} {d : Delimiters} :
    readDelimiters.pair host (.str text) (text.words.map Value.str) = .ok d ↔
      PairOf (.str text) d := by
  rw [pair_ok_iff]
  constructor
  · rintro ⟨split, -, -⟩
    have words : text.words = [d.opening, d.closing] :=
      List.map_injective_iff.mpr (fun _ _ same => Value.str.inj same) split
    exact .words (Text.words_two_iff.mp words)
  · intro pair
    cases pair with
    | words two =>
        rw [Text.words_two_iff.mpr two]
        obtain ⟨_, _, _, -, -, -, -, -, first, second⟩ := two
        exact ⟨rfl, Text.word_not_blank first, Text.word_not_blank second⟩

theorem read_delimiters_iff {v : Value} (loaded : Loaded v) {d : Delimiters} :
    readDelimiters host v = .ok d ↔ PairOf v d := by
  cases loaded with
  | scalar scalar =>
      cases scalar with
      | text text => exact words_pair
      | _ =>
          constructor
          · intro failed
            cases failed
          · rintro ⟨⟩
  | @list items _ =>
      show readDelimiters.pair host (.sequence .list items) items = .ok d ↔ _
      rw [pair_ok_iff]
      constructor
      · rintro ⟨rfl, visible, visible'⟩
        exact .list visible visible'
      · rintro ⟨⟩
        exact ⟨rfl, ‹_›, ‹_›⟩
  | mapping =>
      constructor
      · intro failed
        cases failed
      · rintro ⟨⟩

theorem flag_ok_iff {flag : Bool} :
    ofMapping.setting host (.mapping .dict none entries) flagName readFlag
        standard.errorOnMissing = .ok flag ↔
      Sets entries flagName (fun v flag => v = .bool flag) standard.errorOnMissing flag :=
  setting_ok_iff fun _ _ => read_flag_iff

theorem delimiters_ok_iff (loaded : ∀ entry ∈ entries, Loaded entry.2) {d : Delimiters} :
    ofMapping.setting host (.mapping .dict none entries) delimitersName (readDelimiters host)
        standard.delimiters = .ok d ↔
      Sets entries delimitersName PairOf standard.delimiters d :=
  setting_ok_iff fun _ found => read_delimiters_iff (loaded _ (Value.mem_of_find? found))

/-- The mapping has the documented settings, and these are the options they give. -/
structure Documented (entries : List (Value × Value)) (options : Options) : Prop where
  known : ∀ entry ∈ entries, entry.1 = .str flagName ∨ entry.1 = .str delimitersName
  flag : Sets entries flagName (fun v flag => v = .bool flag) standard.errorOnMissing
    options.errorOnMissing
  delimiters : Sets entries delimitersName PairOf standard.delimiters options.delimiters

theorem documented_accepted {options : Options} (documented : Documented entries options) :
    options.delimiters.Accepted := by
  rcases documented.delimiters with ⟨v, -, pair⟩ | ⟨-, usual⟩
  · generalize options.delimiters = d at pair
    cases pair with
    | words two =>
        obtain ⟨_, _, _, -, -, -, -, -, first, second⟩ := two
        exact ⟨first.1, second.1⟩
    | list visible visible' =>
        constructor
        · rintro rfl
          exact visible (List.forall_mem_nil _)
        · rintro rfl
          exact visible' (List.forall_mem_nil _)
  · rw [usual]
    exact ⟨List.cons_ne_nil _ _, List.cons_ne_nil _ _⟩

section Mapping
variable (scalars : ∀ entry ∈ entries, Scalar entry.1)
include scalars

theorem keys_of_mapping :
    keys host (.mapping .dict none entries) = .ok (distinct (entries.map (·.1))) := by
  have all : ∀ key ∈ entries.map Prod.fst, Scalar key := List.forall_mem_map.mpr scalars
  have fit : unfitKey? (entries.map (·.1)) = none := by
    rw [unfitKey?, scalars_unchangeable all]
    rfl
  have listed : host.elements? (.mapping .dict none entries) = some (entries.map (·.1)) := rfl
  simp only [keys, listed, fit]

theorem of_mapping_unknown (unknown : unknownKeys entries ≠ []) :
    ofMapping host (.mapping .dict none entries) = .error (refuseNames (unknownKeys entries)) := by
  unfold ofMapping
  rw [keys_of_mapping scalars]
  have some : (!(unknownKeys entries).isEmpty) = true := by simpa using unknown
  exact if_pos some

theorem of_mapping_known (known : unknownKeys entries = []) :
    ofMapping host (.mapping .dict none entries) = (do
      let flag ← ofMapping.setting host (.mapping .dict none entries) flagName readFlag
        standard.errorOnMissing
      let delimiters ← ofMapping.setting host (.mapping .dict none entries) delimitersName
        (readDelimiters host) standard.delimiters
      pure ⟨flag, delimiters⟩) := by
  unfold ofMapping
  rw [keys_of_mapping scalars]
  have none : ¬ (!(unknownKeys entries).isEmpty) = true := by simp [known]
  exact if_neg none

theorem of_mapping_ok_iff (loaded : ∀ entry ∈ entries, Loaded entry.2) {options : Options} :
    ofMapping host (.mapping .dict none entries) = .ok options ↔ Documented entries options := by
  by_cases known : unknownKeys entries = []
  · rw [of_mapping_known scalars known]
    constructor
    · intro made
      obtain ⟨flag, set, goes⟩ := bind_succeeds made
      obtain ⟨delimiters, set', done⟩ := bind_succeeds goes
      cases done
      exact ⟨known_iff.mp known, flag_ok_iff.mp set, (delimiters_ok_iff loaded).mp set'⟩
    · rintro ⟨-, flag, delimiters⟩
      rw [flag_ok_iff.mpr flag, (delimiters_ok_iff loaded).mpr delimiters]
      rfl
  · rw [of_mapping_unknown scalars known]
    constructor
    · intro failed
      cases failed
    · intro documented
      exact absurd (known_iff.mpr documented.known) known

/-- An error that is not about the options is one about the types of the keys. -/
theorem of_mapping_fails {error : HostError}
    (failed : ofMapping host (.mapping .dict none entries) = .error (.host error)) :
    error.kind = .type ∧ HasOtherKey entries := by
  by_cases known : unknownKeys entries = []
  · -- A setting that is wrong is refused as such, so known names lead to no such error.
    rw [of_mapping_known scalars known] at failed
    rcases bind_fails failed with wrong | ⟨flag, -, goes⟩
    · obtain ⟨_, ⟨⟩⟩ := setting_fails wrong
    · rcases bind_fails goes with wrong | ⟨delimiters, -, done⟩
      · obtain ⟨_, ⟨⟩⟩ := setting_fails wrong
      · cases done
  · rw [of_mapping_unknown scalars known] at failed
    injection failed with refused
    by_cases texts : ∀ v ∈ unknownKeys entries, ∃ text, v = .str text
    · obtain ⟨names, named, -⟩ := refuse_texts texts
      cases named.symm.trans refused
    · have other : ∃ v ∈ unknownKeys entries, ∀ text, v ≠ .str text := by
        push Not at texts
        exact texts
      obtain ⟨_, wrong, kind⟩ := refuse_other other
      cases wrong.symm.trans refused
      exact ⟨kind, other_key_iff.mpr other⟩

theorem of_mapping_other (other : HasOtherKey entries) :
    ∃ error, ofMapping host (.mapping .dict none entries) = .error (.host error) := by
  obtain ⟨v, here, no_text⟩ := other_key_iff.mp other
  have unknown : unknownKeys entries ≠ [] := List.ne_nil_of_mem here
  obtain ⟨error, refused, -⟩ := refuse_other ⟨v, here, no_text⟩
  exact ⟨error, by rw [of_mapping_unknown scalars unknown, refused]⟩

end Mapping

/-! Documents. -/

inductive Hollow : Value → Prop
  | null : Hollow .null
  | unset : Hollow (.bool false)
  | zero : Hollow (.int 0)
  | zeroFloat {x : Binary64} : x.isZero = true → Hollow (.float x)
  | text : Hollow (.str [])
  | bytes : Hollow (.bytes false [])
  | list : Hollow (.sequence .list [])

/-- The options that a document stands for. -/
inductive StandsFor : Value → Options → Prop
  | hollow {document : Value} : Hollow document → StandsFor document standard
  | settings {entries : List (Value × Value)} {options : Options} :
      Documented entries options → StandsFor (.mapping .dict none entries) options

theorem hollow_iff {v : Value} (loaded : Loaded v)
    (other : ∀ entries, v ≠ .mapping .dict none entries) : host.isTrue v = false ↔ Hollow v := by
  cases loaded with
  | scalar scalar =>
      cases scalar with
      | null => exact iff_of_true rfl .null
      | bool b =>
          cases b with
          | false => exact iff_of_true rfl .unset
          | true => exact iff_of_false (by simp [Host.isTrue]) nofun
      | int n =>
          by_cases zero : n = 0
          · subst zero
            exact iff_of_true rfl .zero
          · refine iff_of_false (by simpa [Host.isTrue] using zero) ?_
            rintro ⟨⟩
            exact zero rfl
      | float x =>
          cases zero : x.isZero with
          | true => exact iff_of_true (by simp [Host.isTrue, zero]) (.zeroFloat zero)
          | false =>
              refine iff_of_false (by simp [Host.isTrue, zero]) ?_
              intro hollow
              cases hollow with
              | zeroFloat zero' => cases zero.symm.trans zero'
      | text text =>
          cases text with
          | nil => exact iff_of_true rfl .text
          | cons c rest =>
              exact iff_of_false (by simp [Host.isTrue, Host.length?, Host.elements?]) nofun
      | bytes content =>
          cases content with
          | nil => exact iff_of_true rfl .bytes
          | cons b rest =>
              exact iff_of_false (by simp [Host.isTrue, Host.length?, Host.elements?]) nofun
      | moment m => exact iff_of_false (by simp [Host.isTrue, Host.length?, Host.elements?]) nofun
  | @list items _ =>
      cases items with
      | nil => exact iff_of_true rfl .list
      | cons item rest =>
          exact iff_of_false (by simp [Host.isTrue, Host.length?, Host.elements?]) nofun
  | mapping => exact absurd rfl (other _)

theorem of_document_other (path : Text) {document : Value} (loaded : Loaded document)
    (other : ∀ entries, document ≠ .mapping .dict none entries) :
    ofDocument path host document =
      if host.isTrue document then .error (.config (.notMapping path)) else .ok standard := by
  cases loaded with
  | scalar scalar => cases scalar <;> rfl
  | list => rfl
  | mapping => exact absurd rfl (other _)

theorem of_document_ok_iff (path : Text) {document : Value} (loaded : Loaded document)
    {options : Options} :
    ofDocument path host document = .ok options ↔ StandsFor document options := by
  by_cases other : ∀ entries, document ≠ .mapping .dict none entries
  · rw [of_document_other path loaded other]
    constructor
    · intro made
      split at made
      · cases made
      · next hollow =>
          cases made
          exact .hollow ((hollow_iff loaded other).mp (Bool.eq_false_iff.mpr hollow))
    · intro stands
      cases stands with
      | hollow hollow => simp [(hollow_iff loaded other).mpr hollow]
      | settings => exact absurd rfl (other _)
  · push Not at other
    obtain ⟨entries, rfl⟩ := other
    cases loaded with
    | scalar scalar => cases scalar
    | mapping scalars values =>
        refine (of_mapping_ok_iff scalars values).trans ⟨.settings, fun stands => ?_⟩
        cases stands with
        | hollow hollow => cases hollow
        | settings documented => exact documented

theorem of_document_host_iff (path : Text) {document : Value} (loaded : Loaded document) :
    (∃ error, ofDocument path host document = .error (.host error)) ↔
      ∃ entries, document = .mapping .dict none entries ∧ HasOtherKey entries := by
  constructor
  · rintro ⟨error, failed⟩
    by_cases other : ∀ entries, document ≠ .mapping .dict none entries
    · rw [of_document_other path loaded other] at failed
      split at failed <;> cases failed
    · push Not at other
      obtain ⟨entries, rfl⟩ := other
      cases loaded with
      | scalar scalar => cases scalar
      | mapping scalars _ => exact ⟨entries, rfl, (of_mapping_fails scalars failed).2⟩
  · rintro ⟨entries, rfl, other⟩
    cases loaded with
    | scalar scalar => cases scalar
    | mapping scalars _ => exact of_mapping_other scalars other

section Files
variable {ε : Type} {read : Text → Except ε Value} {source : Text} {document : Value}
  (reads : read source = .ok document)
include reads

theorem load_eq (path : Text) :
    load read path host (some source) =
      (ofDocument path host document).mapError LoadError.refused := by
  rw [load, reads]

theorem load_ok_iff (path : Text) {options : Options} :
    load read path host (some source) = .ok options ↔
      ofDocument path host document = .ok options := by
  rw [load_eq reads]
  cases ofDocument path host document <;> simp [Except.mapError]

theorem load_refused_iff (path : Text) {error : OptionsError} :
    load read path host (some source) = .error (.refused error) ↔
      ofDocument path host document = .error error := by
  rw [load_eq reads]
  cases ofDocument path host document <;> simp [Except.mapError]

end Files

/-- Without a file the options are the standard ones. The document of a file is taken as options
exactly if it is a mapping with the documented settings, which are then those of the options, or
if it counts as false, which gives the standard ones. Options that are taken have delimiters that
the constructor takes too. Everything else is refused with an error about the options, but for a
mapping with a key that is not a text: it fails with a type error. -/
theorem options_of_document {ε : Type} (read : Text → Except ε Value) (path : Text) (host : Host)
    {source : Text} {document : Value} (reads : read source = .ok document)
    (loaded : Loaded document) :
    load read path host none = .ok standard ∧
      (∀ options, load read path host (some source) = .ok options ↔ StandsFor document options) ∧
      (∀ options, load read path host (some source) = .ok options →
        options.delimiters.Accepted ∧
          make options.errorOnMissing [options.delimiters.opening, options.delimiters.closing] =
            .ok options) ∧
      (∀ error, load read path host (some source) ≠ .error (.unread error)) ∧
      ((∃ error, load read path host (some source) = .error (.refused (.host error))) ↔
        ∃ entries, document = .mapping .dict none entries ∧ HasOtherKey entries) ∧
      ∀ error, load read path host (some source) = .error (.refused (.host error)) →
        error.kind = .type := by
  -- Reading the file adds nothing: everything is said of its document.
  have taken (options : Options) :
      load read path host (some source) = .ok options ↔ StandsFor document options :=
    (load_ok_iff reads path).trans (of_document_ok_iff path loaded)
  have fails : (∃ error, load read path host (some source) = .error (.refused (.host error))) ↔
      ∃ entries, document = .mapping .dict none entries ∧ HasOtherKey entries :=
    (exists_congr fun error => load_refused_iff reads path).trans (of_document_host_iff path loaded)
  refine ⟨rfl, taken, ?_, ?_, fails, ?_⟩
  · intro options made
    have accepted : options.delimiters.Accepted := by
      cases (taken options).mp made with
      | hollow => exact ⟨List.cons_ne_nil _ _, List.cons_ne_nil _ _⟩
      | settings documented => exact documented_accepted documented
    exact ⟨accepted, accepted_makes accepted options.errorOnMissing⟩
  · intro error
    rw [load_eq reads]
    cases ofDocument path host document <;> exact nofun
  · intro error failed
    obtain ⟨entries, rfl, -⟩ := fails.mp ⟨error, failed⟩
    have refused := (load_refused_iff reads path).mp failed
    cases loaded with
    | scalar scalar => cases scalar
    | mapping scalars _ => exact (of_mapping_fails scalars refused).1

def fullDocument : Value :=
  .mapping .dict none
    [(.str delimitersName, .str "<% %>".toList), (.str flagName, .bool true)]

theorem full_document_taken :
    Loaded fullDocument ∧ StandsFor fullDocument ⟨true, ⟨['<', '%'], ['%', '>']⟩⟩ := by
  have loaded : Loaded fullDocument := by
    refine .mapping ?_ ?_
    · exact List.forall_mem_cons.mpr ⟨.text _, List.forall_mem_singleton.mpr (.text _)⟩
    · exact List.forall_mem_cons.mpr
        ⟨.scalar (.text _), List.forall_mem_singleton.mpr (.scalar (.bool true))⟩
  have made : load (ε := Empty) (fun _ => .ok fullDocument) [] .initial (some []) =
      .ok ⟨true, ⟨['<', '%'], ['%', '>']⟩⟩ := by rfl
  obtain ⟨-, taken, -⟩ := options_of_document (ε := Empty) (fun _ => .ok fullDocument) [] .initial
    rfl loaded
  exact ⟨loaded, (taken _).mp made⟩

/-- A key that is a number is not refused as an unknown option, and an empty list is taken. -/
theorem numbered_key_fails :
    ofDocument [] .initial (.mapping .dict none [(.int 1, .str ['x'])]) =
        .error (.host ⟨.type, "sequence item 0: expected str instance, int found".toList⟩) ∧
      ofDocument [] .initial (.sequence .list []) = .ok standard := by
  have scalars : ∀ entry ∈ [(Value.int 1, Value.str ['x'])], Scalar entry.1 :=
    List.forall_mem_singleton.mpr (.int 1)
  have unknown : unknownKeys [(.int 1, .str ['x'])] = [.int 1] := by rfl
  constructor
  · refine (of_mapping_unknown scalars (by rw [unknown]; exact List.cons_ne_nil _ _)).trans ?_
    rw [unknown]
    rfl
  · rfl

end Options
end Mustache
