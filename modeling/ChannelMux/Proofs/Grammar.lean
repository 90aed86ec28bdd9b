import ChannelMux.Proofs.Negotiation
import Mathlib.Data.List.Induction

/-!
# Grammar: which lists of parameters are read

A list is read if each of its parameters takes the value that stands beside it and none occurs
twice.  What is read is what the list holds, in whatever order (`Params.ofList_eq_ok_iff`).

A parameter that takes a size takes more than its grammar has.  The grammar of RFC 7692 has the
decimal digits of the size, while a plus sign and zeros before them are read as well
(`bitsOfText_eq_ok_iff`).
-/

namespace ChannelMux

namespace Text

/-! ## Numbers -/

variable {c : Char} {cs : List Char} {n : Nat}

theorem exists_digitChar (h : c.isDigit = true) : ∃ d < 10, d.digitChar = c := by
  have hrange : 48 ≤ c.toNat ∧ c.toNat ≤ 57 := Char.isDigit_iff_toNat.mp h
  have hsmall : c.toNat - 48 < 10 := by omega
  refine ⟨c.toNat - 48, hsmall, Char.toNat_inj.mp ?_⟩
  rw [Nat.toNat_digitChar_of_lt_ten hsmall]
  omega

/-- The digits of a number that is not zero and digits after them are those of a larger number. -/
theorem toDigits_append_digits (hn : 0 < n) (h : ∀ c ∈ cs, c.isDigit = true) :
    Nat.toDigits 10 n ++ cs = Nat.toDigits 10 (Nat.ofDigitChars 10 cs n) := by
  induction cs generalizing n with
  | nil => simp
  | cons c cs ih =>
    obtain ⟨hc, hcs⟩ := List.forall_mem_cons.mp h
    obtain ⟨d, hd, rfl⟩ := exists_digitChar hc
    have hfirst : Nat.toDigits 10 n ++ [d.digitChar] = Nat.toDigits 10 (10 * n + d) := by
      rw [← Nat.toDigits_append_toDigits (by decide) hn hd, Nat.toDigits_of_lt_base hd]
    rw [List.append_cons, hfirst, ih (by omega) hcs, Nat.ofDigitChars_cons_digitChar_of_lt_ten hd]

/-- Any digits are zeros and then the digits of the number that they stand for. -/
theorem exists_zeros_append_toDigits (hne : cs ≠ []) (h : ∀ c ∈ cs, c.isDigit = true) :
    ∃ zeros, cs = List.replicate zeros '0' ++ Nat.toDigits 10 (Nat.ofDigitChars 10 cs 0) := by
  induction cs with
  | nil => exact absurd rfl hne
  | cons c cs ih =>
    obtain ⟨hc, hcs⟩ := List.forall_mem_cons.mp h
    obtain ⟨d, hd, rfl⟩ := exists_digitChar hc
    rw [Nat.ofDigitChars_cons_digitChar_of_lt_ten hd, Nat.mul_zero, Nat.zero_add]
    rcases Nat.eq_zero_or_pos d with rfl | hpos
    · cases cs with
      | nil => exact ⟨0, rfl⟩
      | cons c cs =>
        obtain ⟨zeros, hzeros⟩ := ih (List.cons_ne_nil c cs) hcs
        exact ⟨zeros + 1, congrArg ('0' :: ·) hzeros⟩
    · refine ⟨0, ?_⟩
      rw [← toDigits_append_digits hpos hcs, Nat.toDigits_of_lt_base hd]
      rfl

/-- The spellings of a number: a plus sign or none, any number of zeros, and the digits. -/
def Spells (s : String) (n : Nat) : Prop :=
  ∃ sign ∈ [[], ['+']], ∃ zeros,
    s.toList = sign ++ (List.replicate zeros '0' ++ (toString n).toList)

end Text

open Text

namespace Deflate

/-! ## Sizes -/

variable {text : String} {n : Nat}

/-- A size as the grammar has it: its decimal digits. -/
def Numeral (text : String) (n : Nat) : Prop := text = toString n ∧ minBits ≤ n ∧ n ≤ maxBits

/-- A size as it is read. -/
def Spelling (text : String) (n : Nat) : Prop := Spells text n ∧ minBits ≤ n ∧ n ≤ maxBits

theorem Numeral.spelling (h : Numeral text n) : Spelling text n := by
  refine ⟨⟨[], by simp, 0, ?_⟩, h.2⟩
  rw [h.1]
  rfl

theorem exists_sign_append (cs : List Char) :
    ∃ sign ∈ [[], ['+']], cs = sign ++ if cs.head? = some '+' then cs.tail else cs := by
  cases cs with
  | nil => exact ⟨[], by simp, rfl⟩
  | cons c cs =>
    by_cases hplus : c = '+'
    · exact ⟨['+'], by simp, by simp [hplus]⟩
    · exact ⟨[], by simp, by simp [hplus]⟩

/-- A sign is passed over, and the digits after it count. -/
theorem octet?_sign_append {sign cs : List Char} (hsign : sign ∈ [[], ['+']]) (hne : cs ≠ [])
    (h : ∀ c ∈ cs, c.isDigit = true) : octet? (sign ++ cs) =
      if Nat.ofDigitChars 10 cs 0 < 256 then some (Nat.ofDigitChars 10 cs 0) else none := by
  have hdigits : (if (sign ++ cs).head? = some '+' then (sign ++ cs).tail else sign ++ cs) = cs := by
    rcases List.mem_pair.mp hsign with rfl | rfl
    · rw [List.nil_append, if_neg]
      intro hplus
      exact absurd (h '+' (List.mem_of_mem_head? hplus)) (by decide)
    · rfl
  rw [octet?, hdigits, if_pos ⟨hne, List.all_eq_true.mpr h⟩]
  rfl

theorem octet?_eq_some_iff : octet? text.toList = some n ↔ Spells text n ∧ n < 256 := by
  constructor
  · intro h
    obtain ⟨sign, hsign, htext⟩ := exists_sign_append text.toList
    rw [octet?] at h
    generalize (if text.toList.head? = some '+' then text.toList.tail else text.toList) = cs
      at h htext
    split at h
    next hdigits =>
      dsimp only at h
      split at h
      next hsmall =>
        obtain rfl := Option.some.inj h
        obtain ⟨zeros, hcs⟩ :=
          exists_zeros_append_toDigits hdigits.1 (List.all_eq_true.mp hdigits.2)
        refine ⟨⟨sign, hsign, zeros, ?_⟩, hsmall⟩
        rw [htext, Nat.toString_eq_repr, Nat.toList_repr]
        exact congrArg (sign ++ ·) hcs
      next => cases h
    next => cases h
  · rintro ⟨⟨sign, hsign, zeros, htext⟩, hsmall⟩
    have hdigits : ∀ c ∈ List.replicate zeros '0' ++ (toString n).toList, c.isDigit = true := by
      intro c hc
      rcases List.mem_append.mp hc with hc | hc
      · rw [(List.mem_replicate.mp hc).2]
        decide
      · exact Nat.isDigit_of_mem_toDigits (b := 10) (by decide) (by decide) (by simpa using hc)
    have hvalue : Nat.ofDigitChars 10 (List.replicate zeros '0' ++ (toString n).toList) 0 = n := by
      rw [Nat.ofDigitChars_append]
      simp
    rw [htext, octet?_sign_append hsign (by simp) hdigits, hvalue, if_pos hsmall]

/-- A size is read of any spelling of it. -/
theorem bitsOfText_eq_ok_iff : bitsOfText text = .ok n ↔ Spelling text n := by
  have hread : bitsOfText text = .ok n ↔
      octet? text.toList = some n ∧ minBits ≤ n ∧ n ≤ maxBits := by
    rw [bitsOfText]
    cases octet? text.toList with
    | none => simp
    | some m =>
      dsimp only
      rw [Option.some.injEq]
      split
      next hbounds =>
        constructor
        · rintro ⟨⟩
          exact ⟨rfl, hbounds⟩
        · rintro ⟨rfl, -⟩
          rfl
      next hbounds =>
        constructor
        · intro h
          cases h
        · rintro ⟨rfl, hin⟩
          exact absurd hin hbounds
  rw [hread, octet?_eq_some_iff, Spelling]
  constructor
  · rintro ⟨⟨hspells, -⟩, hbounds⟩
    exact ⟨hspells, hbounds⟩
  · rintro ⟨hspells, hlow, hhigh⟩
    exact ⟨⟨hspells, Nat.lt_of_le_of_lt hhigh (by decide)⟩, hlow, hhigh⟩

theorem Spelling.eq {m : Nat} (hm : Spelling text m) (hn : Spelling text n) : m = n :=
  Except.ok.inj ((bitsOfText_eq_ok_iff.mpr hm).symm.trans (bitsOfText_eq_ok_iff.mpr hn))

/-! ## Lists -/

namespace Params

variable {size : String → Nat → Prop} {ps qs : List Extension.Param} {p : Extension.Param}
  {q : Parameter} {value : Option String} {out out' : Params}

/-- The values that a parameter takes, where `size` says which texts stand for which sizes. -/
inductive Takes (size : String → Nat → Prop) : Parameter → Option String → Prop where
  | serverNoTakeover : Takes size .serverNoTakeover none
  | clientNoTakeover : Takes size .clientNoTakeover none
  | serverBits {text : String} {n : Nat} : size text n → Takes size .serverBits (some text)
  | clientBare : Takes size .clientBits none
  | clientBits {text : String} {n : Nat} : size text n → Takes size .clientBits (some text)

/-- The list holds only parameters with values that they take, and none of them twice. -/
structure InForm (size : String → Nat → Prop) (ps : List Extension.Param) : Prop where
  takes : ∀ p ∈ ps, ∃ q : Parameter, p.name = q.name ∧ Takes size q p.value
  once : (ps.map (·.name)).Nodup

/-- What the list holds, and nothing else. -/
structure Collects (size : String → Nat → Prop) (ps : List Extension.Param) (out : Params) :
    Prop where
  serverNoTakeover :
    out.serverNoTakeover = true ↔ ⟨Parameter.serverNoTakeover.name, none⟩ ∈ ps
  clientNoTakeover :
    out.clientNoTakeover = true ↔ ⟨Parameter.clientNoTakeover.name, none⟩ ∈ ps
  serverBits : ∀ n, out.serverBits = some n ↔
    ∃ text, ⟨Parameter.serverBits.name, some text⟩ ∈ ps ∧ size text n
  clientBare : out.clientWindow = .bare ↔ ⟨Parameter.clientBits.name, none⟩ ∈ ps
  clientBits : ∀ n, out.clientWindow = .bits n ↔
    ∃ text, ⟨Parameter.clientBits.name, some text⟩ ∈ ps ∧ size text n

/-- Nothing has been read of the parameter. -/
def Lacks (out : Params) : Parameter → Prop
  | .serverNoTakeover => out.serverNoTakeover = false
  | .clientNoTakeover => out.clientNoTakeover = false
  | .serverBits => out.serverBits = none
  | .clientBits => out.clientWindow = .absent

/-! ### The forms of a list -/

theorem Takes.mono {size' : String → Nat → Prop} (hsize : ∀ text n, size text n → size' text n)
    (h : Takes size q value) : Takes size' q value := by
  cases h with
  | serverNoTakeover => exact .serverNoTakeover
  | clientNoTakeover => exact .clientNoTakeover
  | serverBits hn => exact .serverBits (hsize _ _ hn)
  | clientBare => exact .clientBare
  | clientBits hn => exact .clientBits (hsize _ _ hn)

theorem InForm.mono {size' : String → Nat → Prop} (hsize : ∀ text n, size text n → size' text n)
    (h : InForm size ps) : InForm size' ps where
  takes p hp := by
    obtain ⟨q, hname, htakes⟩ := h.takes p hp
    exact ⟨q, hname, htakes.mono hsize⟩
  once := h.once

theorem InForm.perm (h : InForm size ps) (hperm : qs.Perm ps) : InForm size qs where
  takes p hp := h.takes p (hperm.mem_iff.mp hp)
  once := (hperm.map _).nodup_iff.mpr h.once

theorem InForm.takes_of_mem (h : InForm size ps) (hp : ⟨q.name, value⟩ ∈ ps) :
    Takes size q value := by
  obtain ⟨q', hname, htakes⟩ := h.takes _ hp
  obtain rfl := Parameter.name_inj.mp hname
  exact htakes

theorem inForm_nil : InForm size [] := ⟨by simp, List.nodup_nil⟩

theorem inForm_concat : InForm size (ps ++ [⟨q.name, value⟩]) ↔
    InForm size ps ∧ Takes size q value ∧ q.name ∉ ps.map (·.name) := by
  constructor
  · intro h
    have honce := h.once
    rw [List.map_append, List.map_singleton, List.nodup_append] at honce
    refine ⟨⟨fun p hp => h.takes p (List.mem_append_left _ hp), honce.1⟩, ?_, ?_⟩
    · exact h.takes_of_mem (by simp)
    · exact fun hin => honce.2.2 _ hin _ (List.mem_singleton.mpr rfl) rfl
  · rintro ⟨h, htakes, hfresh⟩
    constructor
    · intro p hp
      rcases List.mem_append.mp hp with hp | hp
      · exact h.takes p hp
      · obtain rfl := List.mem_singleton.mp hp
        exact ⟨q, rfl, htakes⟩
    · rw [List.map_append, List.map_singleton, List.nodup_append]
      refine ⟨h.once, List.pairwise_singleton _ _, ?_⟩
      rintro name hname _ hlast rfl
      obtain rfl := List.mem_singleton.mp hlast
      exact hfresh hname

/-- A parameter of the list stands in it with a value that it takes. -/
theorem InForm.mem_names_iff (h : InForm size ps) : q.name ∈ ps.map (·.name) ↔
    ∃ value, ⟨q.name, value⟩ ∈ ps ∧ Takes size q value := by
  constructor
  · intro hin
    obtain ⟨⟨name, value⟩, hp, rfl⟩ := List.mem_map.mp hin
    exact ⟨value, hp, h.takes_of_mem hp⟩
  · rintro ⟨value, hp, -⟩
    exact List.mem_map_of_mem hp

/-- A size of a list in the form of the grammar has one spelling only. -/
theorem InForm.spelling_iff (h : InForm Numeral ps) (hp : ⟨q.name, some text⟩ ∈ ps) :
    Spelling text n ↔ Numeral text n := by
  constructor
  · intro hn
    cases h.takes_of_mem hp with
    | serverBits hm | clientBits hm => exact hm.spelling.eq hn ▸ hm
  · exact Numeral.spelling

/-! ### What is collected -/

theorem Collects.perm (h : Collects size ps out) (hperm : qs.Perm ps) : Collects size qs out := by
  refine ⟨?_, ?_, ?_, ?_, ?_⟩
  all_goals simp only [hperm.mem_iff]
  exacts [h.serverNoTakeover, h.clientNoTakeover, h.serverBits, h.clientBare, h.clientBits]

theorem Collects.unique (h : Collects size ps out) (h' : Collects size ps out') : out = out' := by
  have hserver : out.serverBits = out'.serverBits :=
    Option.ext fun n => (h.serverBits n).trans (h'.serverBits n).symm
  have hclient : out.clientWindow = out'.clientWindow := by
    cases hwindow : out.clientWindow with
    | bare => exact (h'.clientBare.mpr (h.clientBare.mp hwindow)).symm
    | bits n => exact ((h'.clientBits n).mpr ((h.clientBits n).mp hwindow)).symm
    | absent =>
      cases hwindow' : out'.clientWindow with
      | absent => rfl
      | bare => exact hwindow.symm.trans (h.clientBare.mpr (h'.clientBare.mp hwindow'))
      | bits n => exact hwindow.symm.trans ((h.clientBits n).mpr ((h'.clientBits n).mp hwindow'))
  have hflags : out.serverNoTakeover = out'.serverNoTakeover :=
    Bool.eq_iff_iff.mpr (h.serverNoTakeover.trans h'.serverNoTakeover.symm)
  have hflags' : out.clientNoTakeover = out'.clientNoTakeover :=
    Bool.eq_iff_iff.mpr (h.clientNoTakeover.trans h'.clientNoTakeover.symm)
  obtain ⟨_, _, _, _⟩ := out
  obtain ⟨_, _, _, _⟩ := out'
  rw [mk.injEq]
  exact ⟨hflags, hflags', hserver, hclient⟩

theorem Collects.numeral (h : Collects Spelling ps out) (hform : InForm Numeral ps) :
    Collects Numeral ps out where
  serverNoTakeover := h.serverNoTakeover
  clientNoTakeover := h.clientNoTakeover
  clientBare := h.clientBare
  serverBits n := by
    rw [h.serverBits]
    exact exists_congr fun text => and_congr_right hform.spelling_iff
  clientBits n := by
    rw [h.clientBits]
    exact exists_congr fun text => and_congr_right hform.spelling_iff

theorem collects_nil : Collects size [] {} := by
  constructor <;> simp

/-- Nothing is collected of a parameter that does not stand in the list. -/
theorem Collects.lacks_iff (h : Collects size ps out) (hform : InForm size ps) :
    out.Lacks q ↔ q.name ∉ ps.map (·.name) := by
  rw [hform.mem_names_iff]
  cases q with
  | serverNoTakeover =>
    rw [Lacks, ← Bool.not_eq_true, h.serverNoTakeover, not_iff_not]
    constructor
    · exact fun hp => ⟨none, hp, .serverNoTakeover⟩
    · rintro ⟨_, hp, ⟨⟩⟩
      exact hp
  | clientNoTakeover =>
    rw [Lacks, ← Bool.not_eq_true, h.clientNoTakeover, not_iff_not]
    constructor
    · exact fun hp => ⟨none, hp, .clientNoTakeover⟩
    · rintro ⟨_, hp, ⟨⟩⟩
      exact hp
  | serverBits =>
    rw [Lacks, Option.eq_none_iff_forall_ne_some]
    constructor
    · rintro hnone ⟨_, hp, ⟨⟩⟩
      next hn => exact hnone _ ((h.serverBits _).mpr ⟨_, hp, hn⟩)
    · intro hfresh n hsome
      obtain ⟨text, hp, hn⟩ := (h.serverBits n).mp hsome
      exact hfresh ⟨some text, hp, .serverBits hn⟩
  | clientBits =>
    rw [Lacks]
    constructor
    · rintro habsent ⟨_, hp, htakes⟩
      cases htakes with
      | clientBare => cases habsent.symm.trans (h.clientBare.mpr hp)
      | clientBits hn => cases habsent.symm.trans ((h.clientBits _).mpr ⟨_, hp, hn⟩)
    · intro hfresh
      cases hwindow : out.clientWindow with
      | absent => rfl
      | bare => exact absurd ⟨none, h.clientBare.mp hwindow, .clientBare⟩ hfresh
      | bits n =>
        obtain ⟨text, hp, hn⟩ := (h.clientBits n).mp hwindow
        exact absurd ⟨some text, hp, .clientBits hn⟩ hfresh

/-! ### One parameter more -/

/-- What is taken in has a value that the parameter takes, and is the first that is read of it. -/
theorem takes_of_adds (h : out.Adds p out') :
    ∃ q value, p = ⟨Parameter.name q, value⟩ ∧ Takes Spelling q value ∧ out.Lacks q := by
  cases h with
  | serverFlag hset => exact ⟨_, _, rfl, .serverNoTakeover, hset⟩
  | clientFlag hset => exact ⟨_, _, rfl, .clientNoTakeover, hset⟩
  | serverBits hset hread => exact ⟨_, _, rfl, .serverBits (bitsOfText_eq_ok_iff.mp hread), hset⟩
  | clientBare hset => exact ⟨_, _, rfl, .clientBare, hset⟩
  | clientBits hset hread => exact ⟨_, _, rfl, .clientBits (bitsOfText_eq_ok_iff.mp hread), hset⟩

theorem exists_adds (htakes : Takes Spelling q value) (hlacks : out.Lacks q) :
    ∃ out', out.Adds ⟨q.name, value⟩ out' := by
  cases htakes with
  | serverNoTakeover => exact ⟨_, .serverFlag hlacks⟩
  | clientNoTakeover => exact ⟨_, .clientFlag hlacks⟩
  | serverBits hn => exact ⟨_, .serverBits hlacks (bitsOfText_eq_ok_iff.mpr hn)⟩
  | clientBare => exact ⟨_, .clientBare hlacks⟩
  | clientBits hn => exact ⟨_, .clientBits hlacks (bitsOfText_eq_ok_iff.mpr hn)⟩

theorem mem_concat_iff {q' : Parameter} {value' : Option String} :
    (⟨q'.name, value'⟩ : Extension.Param) ∈ ps ++ [⟨q.name, value⟩] ↔
      ⟨q'.name, value'⟩ ∈ ps ∨ q' = q ∧ value' = value := by
  simp [Parameter.name_inj]

/-- A list that has had no size of the parameter has one once a spelling of it is added. -/
theorem eq_iff_exists_spelling {m : Nat} (hn : Spelling text n)
    (hfresh : ∀ text', ⟨q.name, some text'⟩ ∈ ps → ¬ Spelling text' m) :
    n = m ↔ ∃ text', (⟨q.name, some text'⟩ ∈ ps ∨ text' = text) ∧ Spelling text' m := by
  constructor
  · rintro rfl
    exact ⟨text, .inr rfl, hn⟩
  · rintro ⟨text', hp | rfl, hm⟩
    · exact absurd hm (hfresh text' hp)
    · exact hn.eq hm

theorem Collects.adds (h : Collects Spelling ps out) (hadds : out.Adds p out') :
    Collects Spelling (ps ++ [p]) out' := by
  -- in each case the last line is about the fields that stay as they were
  cases hadds with
  | serverFlag =>
    constructor <;> simp only [mem_concat_iff, reduceCtorEq, false_and, or_false, and_self, or_true]
    exacts [h.clientNoTakeover, h.serverBits, h.clientBare, h.clientBits]
  | clientFlag =>
    constructor <;> simp only [mem_concat_iff, reduceCtorEq, false_and, or_false, and_self, or_true]
    exacts [h.serverNoTakeover, h.serverBits, h.clientBare, h.clientBits]
  | serverBits hset hread =>
    constructor <;> simp only [mem_concat_iff, reduceCtorEq, false_and, and_false, or_false,
      true_and, Option.some.injEq]
    case serverBits =>
      refine fun m => eq_iff_exists_spelling (bitsOfText_eq_ok_iff.mp hread) fun text' hp hm => ?_
      cases hset.symm.trans ((h.serverBits m).mpr ⟨text', hp, hm⟩)
    exacts [h.serverNoTakeover, h.clientNoTakeover, h.clientBare, h.clientBits]
  | clientBare hset =>
    constructor <;> simp only [mem_concat_iff, reduceCtorEq, false_and, and_false, or_false,
      and_self, or_true, false_iff]
    case clientBits =>
      rintro m ⟨text, hp, hm⟩
      cases hset.symm.trans ((h.clientBits m).mpr ⟨text, hp, hm⟩)
    exacts [h.serverNoTakeover, h.clientNoTakeover, h.serverBits]
  | clientBits hset hread =>
    constructor <;> simp only [mem_concat_iff, reduceCtorEq, false_and, and_false, or_false,
      true_and, Option.some.injEq, ClientWindow.bits.injEq, false_iff]
    case clientBare =>
      intro hp
      cases hset.symm.trans (h.clientBare.mpr hp)
    case clientBits =>
      refine fun m => eq_iff_exists_spelling (bitsOfText_eq_ok_iff.mp hread) fun text' hp hm => ?_
      cases hset.symm.trans ((h.clientBits m).mpr ⟨text', hp, hm⟩)
    exacts [h.serverNoTakeover, h.clientNoTakeover, h.serverBits]

/-! ### All of them -/

theorem ofList_concat : ofList (ps ++ [p]) = (ofList ps).bind (·.add p) := by
  simp only [ofList, List.foldlM_append, List.foldlM_cons, List.foldlM_nil, bind_pure]
  rfl

theorem ofList_concat_eq_ok_iff : ofList (ps ++ [p]) = .ok out' ↔
    ∃ out, ofList ps = .ok out ∧ out.Adds p out' := by
  rw [ofList_concat]
  cases ofList ps with
  | error => simp [Except.bind]
  | ok out =>
    constructor
    · intro h
      exact ⟨out, rfl, adds_of_add h⟩
    · rintro ⟨_, ⟨⟩, hadds⟩
      exact add_of_adds hadds

/-- A list that is read is in form, and what is read is what it holds. -/
theorem collects_of_ofList (h : ofList ps = .ok out) :
    InForm Spelling ps ∧ Collects Spelling ps out := by
  induction ps using List.reverseRecOn generalizing out with
  | nil =>
    cases h
    exact ⟨inForm_nil, collects_nil⟩
  | append_singleton ps p ih =>
    obtain ⟨before, hread, hadds⟩ := ofList_concat_eq_ok_iff.mp h
    obtain ⟨hform, hcollects⟩ := ih hread
    refine ⟨?_, hcollects.adds hadds⟩
    obtain ⟨q, value, rfl, htakes, hlacks⟩ := takes_of_adds hadds
    exact inForm_concat.mpr ⟨hform, htakes, (hcollects.lacks_iff hform).mp hlacks⟩

/-- A list that is in form is read. -/
theorem exists_ofList (h : InForm Spelling ps) : ∃ out, ofList ps = .ok out := by
  induction ps using List.reverseRecOn with
  | nil => exact ⟨{}, rfl⟩
  | append_singleton ps p ih =>
    obtain ⟨q, hname, -⟩ := h.takes p (by simp)
    obtain ⟨name, value⟩ := p
    obtain rfl := hname
    obtain ⟨hform, htakes, hfresh⟩ := inForm_concat.mp h
    obtain ⟨out, hread⟩ := ih hform
    have hlacks := ((collects_of_ofList hread).2.lacks_iff hform).mpr hfresh
    obtain ⟨out', hadds⟩ := exists_adds htakes hlacks
    exact ⟨out', ofList_concat_eq_ok_iff.mpr ⟨out, hread, hadds⟩⟩

theorem ofList_eq_ok_iff : ofList ps = .ok out ↔ InForm Spelling ps ∧ Collects Spelling ps out := by
  constructor
  · exact collects_of_ofList
  · rintro ⟨hform, hcollects⟩
    obtain ⟨out', hread⟩ := exists_ofList hform
    rw [hread, (collects_of_ofList hread).2.unique hcollects]

theorem ofList_perm (hperm : qs.Perm ps) : ofList qs = .ok out ↔ ofList ps = .ok out := by
  simp only [ofList_eq_ok_iff]
  constructor
  · rintro ⟨hform, hcollects⟩
    exact ⟨hform.perm hperm.symm, hcollects.perm hperm.symm⟩
  · rintro ⟨hform, hcollects⟩
    exact ⟨hform.perm hperm, hcollects.perm hperm⟩

/-- A list is read if it holds only parameters with values that they take, and none of them twice.
What is read is then what it holds, and is the same in whatever order it holds it.  Every list in
the form of the grammar is read; but so is one whose sizes have a plus sign or zeros before them. -/
theorem list_is_read_iff_in_form (ps : List Extension.Param) :
    (InForm Numeral ps → ∃ out, ofList ps = .ok out ∧ Collects Numeral ps out) ∧
    ((∃ out, ofList ps = .ok out) ↔ InForm Spelling ps) ∧
    ∀ out, ofList ps = .ok out →
      Collects Spelling ps out ∧ ∀ qs, qs.Perm ps → ofList qs = .ok out := by
  refine ⟨?_, ?_, ?_⟩
  · intro hform
    obtain ⟨out, hread⟩ := exists_ofList (hform.mono fun _ _ => Numeral.spelling)
    exact ⟨out, hread, (collects_of_ofList hread).2.numeral hform⟩
  · constructor
    · rintro ⟨out, hread⟩
      exact (collects_of_ofList hread).1
    · exact exists_ofList
  · intro out hread
    exact ⟨(collects_of_ofList hread).2, fun qs hperm => (ofList_perm hperm).mpr hread⟩

/-- Two parameters are read in either order. -/
theorem swapped_list_is_read :
    let ps : List Extension.Param :=
      [⟨"client_max_window_bits", some "10"⟩, ⟨"server_no_context_takeover", none⟩]
    InForm Numeral ps ∧ [ps[1], ps[0]].Perm ps ∧
      ∃ out, ofList ps = .ok out ∧ Collects Numeral ps out ∧ ofList [ps[1], ps[0]] = .ok out := by
  intro ps
  have hform : InForm Numeral ps := by
    refine ⟨?_, by decide⟩
    intro p hp
    rcases List.mem_pair.mp hp with rfl | rfl
    · exact ⟨.clientBits, rfl, .clientBits (n := 10) ⟨rfl, by decide, by decide⟩⟩
    · exact ⟨.serverNoTakeover, rfl, .serverNoTakeover⟩
  have hswap : [ps[1], ps[0]].Perm ps := List.Perm.swap _ _ _
  obtain ⟨hgrammar, -, hread⟩ := list_is_read_iff_in_form ps
  obtain ⟨out, hout, hcollects⟩ := hgrammar hform
  exact ⟨hform, hswap, out, hout, hcollects, (hread out hout).2 _ hswap⟩

/-- A size may have a zero before it, which the grammar does not have. -/
theorem padded_size_is_read :
    ofList [⟨"server_max_window_bits", some "08"⟩] = .ok { serverBits := some 8 } ∧
      ¬ InForm Numeral [⟨"server_max_window_bits", some "08"⟩] := by
  refine ⟨by decide +kernel, fun hform => ?_⟩
  have hpadded : ∀ n ≤ maxBits, "08" ≠ toString n := by decide +kernel
  cases hform.takes_of_mem (q := .serverBits) (List.mem_singleton.mpr rfl) with
  | serverBits hn => exact hpadded _ hn.2.2 hn.1

end Params

end Deflate

end ChannelMux
