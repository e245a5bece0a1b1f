import Mathlib
import WideColumn.Proofs.ClassReference.Grammar
import WideColumn.Proofs.Except
/-!
# The meaning of class references

A reference stands for a type if every known class in it, at any depth, has as many parameters
as it takes. Which type that is follows the form of the reference (`MarshalClass.Denotes`),
and which classes are known and what they take is told by a table (`MarshalClass.knownClasses`).
-/

namespace WideColumn

namespace MarshalClass

def name : MarshalClass → List Char
  | mk _ name _ => name

def params : MarshalClass → List MarshalClass
  | mk _ _ params => params

/-- How many parameters a class takes, if it is known. -/
def Role.arity? : Role → Option Nat
  | wrapper | list | set => some 1
  | map => some 2
  | scalar _ => some 0
  | unknown => none

/-- The known classes by their short names, each with the number of parameters that it takes and
with what it does with them. -/
def knownClasses : List (String × Nat × Role) :=
  [("ReversedType", 1, .wrapper), ("FrozenType", 1, .wrapper), ("ListType", 1, .list), ("SetType", 1, .set), ("MapType", 2, .map),
    ("AsciiType", 0, .scalar .ascii), ("LongType", 0, .scalar .bigint), ("BytesType", 0, .scalar .blob),
    ("BooleanType", 0, .scalar .boolean), ("CounterColumnType", 0, .scalar .counter), ("DecimalType", 0, .scalar .decimal),
    ("DoubleType", 0, .scalar .double), ("FloatType", 0, .scalar .float), ("Int32Type", 0, .scalar .int),
    ("UTF8Type", 0, .scalar .varchar), ("TimestampType", 0, .scalar .timestamp), ("DateType", 0, .scalar .timestamp),
    ("UUIDType", 0, .scalar .uuid), ("LexicalUUIDType", 0, .scalar .uuid), ("TimeUUIDType", 0, .scalar .timeuuid),
    ("IntegerType", 0, .scalar .varint), ("InetAddressType", 0, .scalar .inet)]

theorem role_of_mem {n : String} {k : Nat} {r : Role} (h : (n, k, r) ∈ knownClasses) : role n = r ∧ r.arity? = some k := by
  have hall : ∀ c ∈ knownClasses, role c.1 = c.2.2 ∧ c.2.2.arity? = some c.2.1 := by simp [knownClasses, role, Role.arity?]
  exact hall _ h

theorem role_of_not_mem {n : String} (h : n ∉ knownClasses.map Prod.fst) : role n = .unknown := by
  by_contra hrole
  apply h
  unfold role at hrole
  split at hrole <;> first | exact absurd rfl hrole | simp [knownClasses]

/-- A reference has the parameters that its class takes. -/
def Saturated (r : MarshalClass) : Prop :=
  ∀ n, (role (shortName r.name)).arity? = some n → r.params.length = n

/-- `Within q r`: the reference `q` is `r` or stands anywhere in its parameters. -/
inductive Within (q : MarshalClass) : MarshalClass → Prop where
  | self : Within q q
  | param {text name : List Char} {params : List MarshalClass} {p : MarshalClass} (hp : p ∈ params) (h : Within q p) :
    Within q (mk text name params)

/-- A reference in which every known class has the parameters that it takes. -/
def Proper (r : MarshalClass) : Prop := ∀ q, Within q r → q.Saturated

/-- `Denotes r t`: the form of the reference `r` makes it stand for the type `t`. Wrappers are taken off, and a
class that is not known stands for a type of which only the text is known. -/
inductive Denotes : MarshalClass → DataType → Prop where
  | wrapper {text name : List Char} {p : MarshalClass} {t : DataType} (hrole : role (shortName name) = .wrapper)
    (hp : Denotes p t) : Denotes (mk text name [p]) t
  | list {text name : List Char} {p : MarshalClass} {t : DataType} (hrole : role (shortName name) = .list)
    (hp : Denotes p t) : Denotes (mk text name [p]) (.list t)
  | set {text name : List Char} {p : MarshalClass} {t : DataType} (hrole : role (shortName name) = .set)
    (hp : Denotes p t) : Denotes (mk text name [p]) (.set t)
  | map {text name : List Char} {p q : MarshalClass} {k v : DataType} (hrole : role (shortName name) = .map)
    (hp : Denotes p k) (hq : Denotes q v) : Denotes (mk text name [p, q]) (.map k v)
  | scalar {text name : List Char} {t : ScalarType} (hrole : role (shortName name) = .scalar t) :
    Denotes (mk text name []) (.scalar t)
  | unknown {text name : List Char} {params : List MarshalClass} (hrole : role (shortName name) = .unknown) :
    Denotes (mk text name params) (.custom (String.ofList text))

/-! ## Proper references -/

theorem proper_mk_iff {text name : List Char} {params : List MarshalClass} :
    Proper (mk text name params) ↔ Saturated (mk text name params) ∧ ∀ p ∈ params, Proper p := by
  constructor
  · intro h
    exact ⟨h _ .self, fun p hp q hq => h q (.param hp hq)⟩
  · rintro ⟨hself, hparams⟩ q hq
    cases hq with
    | self => exact hself
    | param hp hq => exact hparams _ hp q hq

theorem proper_of_length {text name : List Char} {params : List MarshalClass} {n : Nat}
    (hn : (role (shortName name)).arity? = some n) (hlength : params.length = n) (hparams : ∀ p ∈ params, Proper p) :
    Proper (mk text name params) := by
  refine proper_mk_iff.2 ⟨?_, hparams⟩
  intro m hm
  exact hlength.trans (Option.some.inj (hn.symm.trans hm))

theorem proper_of_unknown {text name : List Char} {params : List MarshalClass} (h : role (shortName name) = .unknown)
    (hparams : ∀ p ∈ params, Proper p) : Proper (mk text name params) := by
  refine proper_mk_iff.2 ⟨?_, hparams⟩
  intro n hn
  rw [MarshalClass.name, h] at hn
  cases hn

theorem induction {motive : MarshalClass → Prop}
    (h : ∀ text name params, (∀ p ∈ params, motive p) → motive (mk text name params)) (r : MarshalClass) : motive r := by
  match r with
  | mk text name params => exact h text name params fun p _ => induction h p

/-- The form of a proper reference always makes it stand for some type. -/
theorem Proper.denotes {r : MarshalClass} (h : Proper r) : ∃ t, Denotes r t := by
  induction r using induction with
  | h text name params ih =>
    obtain ⟨hself, hparams⟩ := proper_mk_iff.1 h
    have single (h : (role (shortName name)).arity? = some 1) : ∃ p t, params = [p] ∧ Denotes p t := by
      obtain ⟨p, rfl⟩ := List.length_eq_one_iff.1 (hself 1 h)
      obtain ⟨t, ht⟩ := ih p (by simp) (hparams p (by simp))
      exact ⟨p, t, rfl, ht⟩
    cases hrole : role (shortName name) with
    | wrapper =>
      obtain ⟨p, t, rfl, ht⟩ := single (by rw [hrole]; rfl)
      exact ⟨t, .wrapper hrole ht⟩
    | list =>
      obtain ⟨p, t, rfl, ht⟩ := single (by rw [hrole]; rfl)
      exact ⟨_, .list hrole ht⟩
    | set =>
      obtain ⟨p, t, rfl, ht⟩ := single (by rw [hrole]; rfl)
      exact ⟨_, .set hrole ht⟩
    | map =>
      obtain ⟨p, q, rfl⟩ := List.length_eq_two.1 (hself 2 (by rw [MarshalClass.name, hrole]; rfl))
      obtain ⟨k, hk⟩ := ih p (by simp) (hparams p (by simp))
      obtain ⟨v, hv⟩ := ih q (by simp) (hparams q (by simp))
      exact ⟨_, .map hrole hk hv⟩
    | scalar t =>
      obtain rfl := List.length_eq_zero_iff.1 (hself 0 (by rw [MarshalClass.name, hrole]; rfl))
      exact ⟨_, .scalar hrole⟩
    | unknown => exact ⟨_, .unknown hrole⟩

/-! ## Resolution -/

theorem resolveAll_eq_ok_iff {P : MarshalClass → DataType → Prop} {ps : List MarshalClass}
    (h : ∀ p ∈ ps, ∀ t, resolve p = .ok t ↔ P p t) (ts : List DataType) :
    resolveAll ps = .ok ts ↔ List.Forall₂ P ps ts := by
  induction ps generalizing ts with
  | nil => cases ts <;> simp [resolveAll]
  | cons p ps ih =>
    have ih := ih fun q hq => h q (List.mem_cons_of_mem p hq)
    simp only [resolveAll, Except.bind_eq_ok_iff, Except.pure_eq_ok_iff, h p List.mem_cons_self, ih]
    constructor
    · rintro ⟨t, ht, ts, hts, rfl⟩
      exact .cons ht hts
    · rintro (_ | ⟨ht, hts⟩)
      exact ⟨_, ht, _, hts, rfl⟩

/-- What a class makes of the types of its parameters. -/
theorem assemble_cases {name text : List Char} {ts : List DataType} {t : DataType} (h : assemble name text ts = .ok t) :
    (role (shortName name) = .wrapper ∧ ts = [t]) ∨
    (role (shortName name) = .list ∧ ∃ e, ts = [e] ∧ t = .list e) ∨
    (role (shortName name) = .set ∧ ∃ e, ts = [e] ∧ t = .set e) ∨
    (role (shortName name) = .map ∧ ∃ k v, ts = [k, v] ∧ t = .map k v) ∨
    (∃ s, role (shortName name) = .scalar s ∧ ts = [] ∧ t = .scalar s) ∨
    (role (shortName name) = .unknown ∧ t = .custom (String.ofList text)) := by
  unfold assemble at h
  simp only at h
  split at h <;> cases h <;> simp_all

theorem assemble_error {name text : List Char} {ts : List DataType} {e : Error} (h : assemble name text ts = .error e) :
    e.kind = .unsupportedType := by
  unfold assemble at h
  simp only at h
  split at h <;> cases h <;> rfl

section Step

variable {text name : List Char} {params : List MarshalClass} {t : DataType}

theorem proper_denotes_of_assemble {ts : List DataType} (proper : ∀ p ∈ params, Proper p)
    (hts : List.Forall₂ Denotes params ts) (h : assemble name text ts = .ok t) :
    Proper (mk text name params) ∧ Denotes (mk text name params) t := by
  rcases assemble_cases h with ⟨hrole, rfl⟩ | ⟨hrole, e, rfl, rfl⟩ | ⟨hrole, e, rfl, rfl⟩ | ⟨hrole, k, v, rfl, rfl⟩ |
    ⟨s, hrole, rfl, rfl⟩ | ⟨hrole, rfl⟩
  · obtain _ | ⟨hp, ⟨⟩⟩ := hts
    exact ⟨proper_of_length (by rw [hrole]; rfl) rfl proper, .wrapper hrole hp⟩
  · obtain _ | ⟨hp, ⟨⟩⟩ := hts
    exact ⟨proper_of_length (by rw [hrole]; rfl) rfl proper, .list hrole hp⟩
  · obtain _ | ⟨hp, ⟨⟩⟩ := hts
    exact ⟨proper_of_length (by rw [hrole]; rfl) rfl proper, .set hrole hp⟩
  · obtain _ | ⟨hp, _ | ⟨hq, ⟨⟩⟩⟩ := hts
    exact ⟨proper_of_length (by rw [hrole]; rfl) rfl proper, .map hrole hp hq⟩
  · cases hts
    exact ⟨proper_of_length (by rw [hrole]; rfl) rfl proper, .scalar hrole⟩
  · exact ⟨proper_of_unknown hrole proper, .unknown hrole⟩

theorem assemble_of_denotes (proper : ∀ p ∈ params, Proper p) (h : Denotes (mk text name params) t) :
    ∃ ts, List.Forall₂ Denotes params ts ∧ assemble name text ts = .ok t := by
  cases h with
  | wrapper hrole hp => exact ⟨[t], .cons hp .nil, by simp [assemble, hrole]⟩
  | @list _ _ _ e hrole hp => exact ⟨[e], .cons hp .nil, by simp [assemble, hrole]⟩
  | @set _ _ _ e hrole hp => exact ⟨[e], .cons hp .nil, by simp [assemble, hrole]⟩
  | @map _ _ _ _ k v hrole hp hq => exact ⟨[k, v], .cons hp (.cons hq .nil), by simp [assemble, hrole]⟩
  | scalar hrole => exact ⟨[], .nil, by simp [assemble, hrole]⟩
  | unknown hrole =>
    obtain ⟨ts, hts⟩ := exists_forall₂ fun p hp => (proper p hp).denotes
    exact ⟨ts, hts, by simp [assemble, hrole]⟩

end Step

/-- A reference resolves to what it denotes, provided that it is proper. -/
theorem resolve_eq_ok_iff {r : MarshalClass} {t : DataType} : resolve r = .ok t ↔ Proper r ∧ Denotes r t := by
  induction r using induction generalizing t with
  | h text name params ih =>
    rw [resolve, Except.bind_eq_ok_iff]
    simp only [resolveAll_eq_ok_iff fun p hp t => ih p hp, List.forall₂_and_left]
    constructor
    · rintro ⟨ts, ⟨proper, hts⟩, h⟩
      exact proper_denotes_of_assemble proper hts h
    · rintro ⟨hproper, h⟩
      have proper := (proper_mk_iff.1 hproper).2
      obtain ⟨ts, hts, h⟩ := assemble_of_denotes proper h
      exact ⟨ts, ⟨proper, hts⟩, h⟩

theorem resolveAll_error {P : Error → Prop} {ps : List MarshalClass} (h : ∀ p ∈ ps, ∀ e, resolve p = .error e → P e)
    {e : Error} (he : resolveAll ps = .error e) : P e := by
  induction ps with
  | nil => cases he
  | cons p ps ih =>
    rw [resolveAll, Except.bind_eq_error_iff] at he
    rcases he with hp | ⟨t, -, he⟩
    · exact h p List.mem_cons_self e hp
    · rcases Except.bind_eq_error_iff.1 he with hps | ⟨ts, -, ⟨⟩⟩
      exact ih (fun q hq => h q (List.mem_cons_of_mem p hq)) hps

theorem resolve_error {r : MarshalClass} {e : Error} (h : resolve r = .error e) : e.kind = .unsupportedType := by
  induction r using induction generalizing e with
  | h text name params ih =>
    rw [resolve, Except.bind_eq_error_iff] at h
    rcases h with h | ⟨ts, -, h⟩
    · exact resolveAll_error (fun p hp _ h => ih p hp h) h
    · exact assemble_error h

theorem shortName_package_append (name : List Char) : shortName (package ++ name) = String.ofList name := by
  unfold shortName
  rw [if_pos (by simp), List.drop_left]

theorem shortName_of_not_prefix {name : List Char} (h : ¬package <+: name) : shortName name = String.ofList name := by
  unfold shortName
  rw [if_neg (by simpa using h)]

theorem isNameChar_iff {c : Char} : isNameChar c = true ↔ Text.isAlphanumeric c = true ∨ c ∈ ['_', '.', '$'] := by
  simp [isNameChar, or_assoc]

theorem isBlank_iff {c : Char} : isBlank c = true ↔ c ∈ [' ', '\t', '\r', '\n'] := by
  simp [isBlank, or_assoc]

end MarshalClass

open MarshalClass

namespace DataType

theorem ofClassReference_eq_ok_iff {s : String} {t : DataType} :
    ofClassReference s = .ok t ↔ ∃ r, ofText? s = some r ∧ r.resolve = .ok t := by
  unfold ofClassReference
  cases ofText? s <;> simp

section Written

variable {s : String} {before cs after : List Char} {r : MarshalClass} (hs : s.toList = before ++ (cs ++ after))
  (hb : Blanks before) (hr : Written r cs) (ha : Blanks after)

include hs hb hr ha

theorem ofClassReference_eq_resolve : ofClassReference s = r.resolve := by
  unfold ofClassReference
  rw [ofText?_eq_some_iff.2 ⟨before, cs, after, hs, hb, hr, ha⟩]

/-- One known class without the parameters that it takes is enough for the whole text to be refused. -/
theorem ofClassReference_improper (h : ¬Proper r) : ∃ e, ofClassReference s = .error e ∧ e.kind = .unsupportedType := by
  rw [ofClassReference_eq_resolve hs hb hr ha]
  cases hresolve : r.resolve with
  | ok t => exact absurd (resolve_eq_ok_iff.1 hresolve).1 h
  | error e => exact ⟨e, rfl, resolve_error hresolve⟩

end Written

/-- The text of a class reference stands for a type exactly if it has the form of one, with
blanks around it, in which each known class has the parameters that it takes. The type is
then the one that the reference denotes; all other texts are refused as unsupported types.
The reader takes an end on every text, since what is left to read gets shorter. In front of
the name of a class its package makes no difference. The classes listed take as many
parameters as it says there and stand for what it says there, and no others are known. -/
theorem ofClassReference_meaning :
    (∀ s t, ofClassReference s = .ok t ↔
      ∃ before cs after r, s.toList = before ++ (cs ++ after) ∧ Blanks before ∧ Written r cs ∧ Blanks after ∧
        Proper r ∧ Denotes r t) ∧
    (∀ s, (∃ t, ofClassReference s = .ok t) ∨ ∃ e, ofClassReference s = .error e ∧ e.kind = .unsupportedType) ∧
    (∀ name, shortName ("org.apache.cassandra.db.marshal.".toList ++ name) = String.ofList name) ∧
    (∀ name, ¬"org.apache.cassandra.db.marshal.".toList <+: name → shortName name = String.ofList name) ∧
    (∀ n k r, (n, k, r) ∈ knownClasses → role n = r ∧ r.arity? = some k) ∧
    (∀ n, n ∉ knownClasses.map Prod.fst → role n = .unknown) ∧
    (∀ c, isNameChar c = true ↔ Text.isAlphanumeric c = true ∨ c ∈ ['_', '.', '$']) ∧
    (∀ c, isBlank c = true ↔ c ∈ [' ', '\t', '\r', '\n']) := by
  refine ⟨?accepted, ?refused, shortName_package_append, fun _ => shortName_of_not_prefix, fun _ _ _ => role_of_mem,
    fun _ => role_of_not_mem, fun _ => isNameChar_iff, fun _ => isBlank_iff⟩
  case accepted =>
    intro s t
    constructor
    · intro h
      obtain ⟨r, hr, hresolve⟩ := ofClassReference_eq_ok_iff.1 h
      obtain ⟨before, cs, after, hs, hb, hwritten, ha⟩ := ofText?_eq_some_iff.1 hr
      exact ⟨before, cs, after, r, hs, hb, hwritten, ha, resolve_eq_ok_iff.1 hresolve⟩
    · rintro ⟨before, cs, after, r, hs, hb, hwritten, ha, h⟩
      rw [ofClassReference_eq_resolve hs hb hwritten ha]
      exact resolve_eq_ok_iff.2 h
  case refused =>
    intro s
    unfold ofClassReference
    cases ofText? s with
    | none => exact .inr ⟨_, rfl, rfl⟩
    | some r =>
      cases h : resolve r with
      | ok t => exact .inl ⟨t, h⟩
      | error e => exact .inr ⟨e, h, resolve_error h⟩

/-- A set in a wrapper, with blanks, and a map that lacks the type of its values. -/
theorem ofClassReference_frozen :
    ofClassReference "FrozenType( SetType(Int32Type))\n" = .ok (.set (.scalar .int)) ∧
    (∃ e, ofClassReference "MapType(Int32Type)" = .error e ∧ e.kind = .unsupportedType) ∧
    shortName "SetType".toList = "SetType" ∧ role "MapType" = .map ∧ role "SetTypes" = .unknown := by
  obtain ⟨accepted, -, -, short, known, unknown, -, -⟩ := ofClassReference_meaning
  have space : Blanks [' '] := by simp [Blanks, isBlank]
  have newline : Blanks ['\n'] := by simp [Blanks, isBlank]
  have hint : Written _ "Int32Type".toList := .name (name_of_alphanum (by simp) (by simp))
  have hset := Written.params (name_of_alphanum (n := "SetType".toList) (by simp) (by simp)) (.last blanks_nil hint blanks_nil)
  have hfrozen := Written.params (name_of_alphanum (n := "FrozenType".toList) (by simp) (by simp)) (.last space hset blanks_nil)
  have hmap := Written.params (name_of_alphanum (n := "MapType".toList) (by simp) (by simp)) (.last blanks_nil hint blanks_nil)
  have proper_int : Proper (mk "Int32Type".toList "Int32Type".toList []) := proper_of_length rfl rfl (by simp)
  have proper {text name : List Char} {p : MarshalClass} (hname : (role (shortName name)).arity? = some 1) (hp : Proper p) :
      Proper (mk text name [p]) := proper_of_length hname rfl (by simpa using hp)
  have hrole : role "MapType" = .map := (known "MapType" 2 .map (by simp [knownClasses])).1
  refine ⟨(accepted _ _).2 ⟨[], _, ['\n'], _, by rfl, blanks_nil, hfrozen, newline, ?_, ?_⟩, ?_, ?_, hrole, ?_⟩
  · exact proper rfl (proper rfl proper_int)
  · exact .wrapper rfl (.set rfl (.scalar rfl))
  · have hs : "MapType(Int32Type)".toList = [] ++ ("MapType(Int32Type)".toList ++ []) := by simp
    apply ofClassReference_improper hs blanks_nil hmap blanks_nil
    intro h
    exact absurd (h _ .self 2 rfl) (by simp [params])
  · exact short _ (by decide +kernel)
  · exact unknown _ (by simp [knownClasses])

end DataType

end WideColumn
