import Mathlib.Data.List.Basic

/-! # Leftmost-first regular expression matching

Go's `regexp` promises the match "that a backtracking implementation would
have chosen" among those that begin leftmost. This module is such a
backtracking implementation, written with continuations: a pattern is matched
against the input and hands what is left, with the captures so far, to the rest
of the pattern, which may reject it and make the matcher try its next choice.

The patterns are those `descRegex` is built from: character classes, sequence,
alternation, capture groups, and greedy or lazy repetition of one character
class. Input is a list of runes, as `regexp` decodes it.
-/

namespace CephExporter.Regexp

/-- A character class as `regexp/syntax` keeps it: inclusive rune ranges,
possibly negated. -/
structure CharClass where
  ranges : List (Char × Char)
  negated : Bool

def CharClass.contains (k : CharClass) (c : Char) : Bool :=
  k.negated != k.ranges.any fun r => r.1.toNat ≤ c.toNat && c.toNat ≤ r.2.toNat

/-- `.`: any rune but a newline (the `s` flag is off). -/
def anyNotNL : CharClass := ⟨[('\n', '\n')], true⟩

def digit : CharClass := ⟨[('0', '9')], false⟩

def space : CharClass := ⟨[('\t', '\n'), ('\x0c', '\r'), (' ', ' ')], false⟩

def word : CharClass := ⟨[('0', '9'), ('A', 'Z'), ('_', '_'), ('a', 'z')], false⟩

def lit (c : Char) : CharClass := ⟨[(c, c)], false⟩

/-- A regular expression: the empty string, one rune of a class, a sequence,
an alternation tried left first, `k*` (greedy) or `k*?`, and the `i`-th
capturing group. -/
inductive Re
  | empty
  | cls (k : CharClass)
  | seq (a b : Re)
  | alt (a b : Re)
  | star (k : CharClass) (greedy : Bool)
  | group (i : Nat) (r : Re)

namespace Re

def cat : List Re → Re
  | [] => empty
  | r :: rs => seq r (cat rs)

def str (s : String) : Re := cat (s.data.map fun c => cls (lit c))

def plus (k : CharClass) (greedy : Bool) : Re := seq (cls k) (star k greedy)

end Re

abbrev Caps := List (Nat × List Char)

abbrev Cont := List Char → Caps → Option Caps

/-- A repetition of `k` before `next`: a greedy one tries one more rune before
handing over, a lazy one hands over before trying one more rune. -/
def starMatch (k : CharClass) (greedy : Bool) (next : Cont) : List Char → Caps → Option Caps
  | [], caps => next [] caps
  | c :: cs, caps =>
    if k.contains c then
      if greedy then starMatch k greedy next cs caps <|> next (c :: cs) caps
      else next (c :: cs) caps <|> starMatch k greedy next cs caps
    else next (c :: cs) caps

/-- The backtracking matcher: `r` against the front of the input, then `next`.
A group records the text between where it started and where it stopped. -/
def Re.m : Re → List Char → Caps → Cont → Option Caps
  | .empty, s, caps, next => next s caps
  | .cls _, [], _, _ => none
  | .cls k, c :: cs, caps, next => if k.contains c then next cs caps else none
  | .seq a b, s, caps, next => a.m s caps fun s' caps' => b.m s' caps' next
  | .alt a b, s, caps, next => a.m s caps next <|> b.m s caps next
  | .star k greedy, s, caps, next => starMatch k greedy next s caps
  | .group i r, s, caps, next =>
    r.m s caps fun s' caps' => next s' ((i, s.take (s.length - s'.length)) :: caps')

/-- The leftmost match: the first starting position at which `r` matches, the
match being free to stop anywhere. -/
def search (r : Re) : List Char → Option Caps
  | [] => r.m [] [] fun _ caps => some caps
  | c :: cs => (r.m (c :: cs) [] fun _ caps => some caps) <|> search r cs

/-! ### Equations -/

section Equations

variable {k : CharClass} {greedy : Bool} {next : Cont} {caps : Caps}

theorem eq_iff_toNat {c d : Char} : c = d ↔ c.toNat = d.toNat :=
  ⟨congrArg _, fun h => by rw [← Char.ofNat_toNat c, h, Char.ofNat_toNat]⟩

theorem contains_lit (c d : Char) : (lit d).contains c = decide (c = d) := by
  rw [Bool.eq_iff_iff]
  simp [lit, CharClass.contains, eq_iff_toNat]
  omega

@[simp] theorem contains_lit_self (c : Char) : (lit c).contains c = true := by
  simp [contains_lit]

@[simp] theorem m_cls_cons (c : Char) (cs : List Char) :
    (Re.cls k).m (c :: cs) caps next = if k.contains c then next cs caps else none := rfl

theorem m_seq (a b : Re) (s : List Char) :
    (Re.seq a b).m s caps next = a.m s caps fun s' caps' => b.m s' caps' next := rfl

theorem m_alt (a b : Re) (s : List Char) :
    (Re.alt a b).m s caps next = (a.m s caps next <|> b.m s caps next) := rfl

theorem m_group (i : Nat) (r : Re) (s : List Char) :
    (Re.group i r).m s caps next =
      r.m s caps fun s' caps' => next s' ((i, s.take (s.length - s'.length)) :: caps') := rfl

theorem m_star (s : List Char) : (Re.star k greedy).m s caps next = starMatch k greedy next s caps :=
  rfl

@[simp] theorem m_cat_nil (s : List Char) : (Re.cat []).m s caps next = next s caps := rfl

@[simp] theorem m_cat_cons (r : Re) (rs : List Re) (s : List Char) :
    (Re.cat (r :: rs)).m s caps next = r.m s caps fun s' caps' => (Re.cat rs).m s' caps' next :=
  rfl

theorem m_lits (l s : List Char) :
    (Re.cat (l.map fun c => .cls (lit c))).m (l ++ s) caps next = next s caps := by
  induction l generalizing caps next with
  | nil => rfl
  | cons c l ih => simp only [List.map_cons, List.cons_append, m_cat_cons, m_cls_cons,
      contains_lit_self, if_true, ih]

theorem m_str (t : String) (s : List Char) : (Re.str t).m (t.data ++ s) caps next = next s caps :=
  m_lits _ _

@[simp] theorem starMatch_nil : starMatch k greedy next [] caps = next [] caps := rfl

theorem starMatch_of_not {c : Char} {cs : List Char} (h : k.contains c = false) :
    starMatch k greedy next (c :: cs) caps = next (c :: cs) caps := by
  simp [starMatch, h]

end Equations

/-! ### Repetition

A repetition leaves the captures alone, so what it does is decided by where
`next` succeeds: a greedy one at the last such place it can reach, a lazy one
at the first. -/

section Repetition

variable {k : CharClass} {next : Cont} {caps r : Caps}

theorem starMatch_stop {s : List Char} (h : ∀ c ∈ s.head?, k.contains c = false) (g : Bool) :
    starMatch k g next s caps = next s caps := by
  cases s with
  | nil => rfl
  | cons c cs => exact starMatch_of_not (h c rfl)

theorem starMatch_none (g : Bool) {s : List Char} (hnil : next [] caps = none)
    (hs : ∀ c ∈ s, ∀ cs, next (c :: cs) caps = none) : starMatch k g next s caps = none := by
  induction s with
  | nil => exact hnil
  | cons c cs ih =>
    have ih := ih fun d hd => hs d (List.mem_cons_of_mem c hd)
    have hc := hs c (List.mem_cons_self c cs) cs
    unfold starMatch
    split_ifs <;> simp [ih, hc]

theorem starMatch_greedy_append {u w : List Char} (hu : ∀ c ∈ u, k.contains c)
    (hw : starMatch k true next w caps = some r) : starMatch k true next (u ++ w) caps = some r := by
  induction u with
  | nil => exact hw
  | cons c u ih =>
    show starMatch k true next (c :: (u ++ w)) caps = some r
    rw [starMatch, if_pos (hu c (List.mem_cons_self c u)), if_pos rfl,
      ih fun d hd => hu d (List.mem_cons_of_mem c hd)]
    rfl

theorem starMatch_lazy_append {u w : List Char}
    (hu : ∀ c ∈ u, k.contains c ∧ ∀ cs, next (c :: cs) caps = none)
    (hw : next w caps = some r) : starMatch k false next (u ++ w) caps = some r := by
  induction u with
  | nil =>
    cases w with
    | nil => exact hw
    | cons c cs =>
      show starMatch k false next (c :: cs) caps = some r
      rw [starMatch, if_neg Bool.false_ne_true]
      split <;> simp [hw]
  | cons c u ih =>
    obtain ⟨hk, hn⟩ := hu c (List.mem_cons_self c u)
    show starMatch k false next (c :: (u ++ w)) caps = some r
    rw [starMatch, if_pos hk, if_neg Bool.false_ne_true, hn,
      ih fun d hd => hu d (List.mem_cons_of_mem c hd)]
    rfl

theorem m_plus_greedy {u s : List Char} (hu : u ≠ []) (hk : ∀ c ∈ u, k.contains c)
    (hs : ∀ c ∈ s.head?, k.contains c = false) (h : next s caps = some r) :
    (Re.plus k true).m (u ++ s) caps next = some r := by
  obtain ⟨c, u, rfl⟩ := List.exists_cons_of_ne_nil hu
  simp only [Re.plus, Re.m, List.cons_append, hk c (List.mem_cons_self c u), if_true]
  exact starMatch_greedy_append (fun d hd => hk d (List.mem_cons_of_mem c hd))
    ((starMatch_stop hs true).trans h)

end Repetition

@[simp] theorem take_append_sub_length (u s : List Char) :
    (u ++ s).take ((u ++ s).length - s.length) = u := by
  simp

theorem search_of_m {re : Re} {s : List Char} {caps : Caps}
    (h : re.m s [] (fun _ caps => some caps) = some caps) : search re s = some caps := by
  cases s with
  | nil => exact h
  | cons c cs => simp [search, h]

/-! ### What a match means

The strings each pattern stands for, and the groups it holds. A successful
match splits its input into a string of the pattern's language and the rest,
and records, for each group it passes, a string of that group's language; it
passes every group that is not under an alternation or a repetition. -/

namespace Re

def Lang : Re → List Char → Prop
  | empty, u => u = []
  | cls k, u => ∃ c, u = [c] ∧ k.contains c
  | seq a b, u => ∃ u₁ u₂, u = u₁ ++ u₂ ∧ a.Lang u₁ ∧ b.Lang u₂
  | alt a b, u => a.Lang u ∨ b.Lang u
  | star k _, u => ∀ c ∈ u, k.contains c
  | group _ r, u => r.Lang u

def groups : Re → List (Nat × Re)
  | seq a b => a.groups ++ b.groups
  | alt a b => a.groups ++ b.groups
  | group i r => (i, r) :: r.groups
  | _ => []

/-- The groups every match of the pattern passes. -/
def always : Re → List Nat
  | seq a b => a.always ++ b.always
  | group i r => i :: r.always
  | _ => []

end Re

@[simp] theorem groups_str (t : String) : (Re.str t).groups = [] := by
  unfold Re.str
  induction t.data with
  | nil => rfl
  | cons c l ih => exact ih

@[simp] theorem always_str (t : String) : (Re.str t).always = [] := by
  unfold Re.str
  induction t.data with
  | nil => rfl
  | cons c l ih => exact ih

@[simp] theorem groups_plus (k : CharClass) (g : Bool) : (Re.plus k g).groups = [] := rfl

@[simp] theorem always_plus (k : CharClass) (g : Bool) : (Re.plus k g).always = [] := rfl

theorem eq_of_lang_lits {l u : List Char} (h : (Re.cat (l.map fun c => .cls (lit c))).Lang u) :
    u = l := by
  induction l generalizing u with
  | nil => exact h
  | cons c l ih =>
    obtain ⟨_, u₂, rfl, ⟨d, rfl, hd⟩, h₂⟩ := h
    rw [contains_lit, decide_eq_true_eq] at hd
    rw [hd, ih h₂]
    rfl

theorem eq_of_lang_str {t : String} {u : List Char} (h : (Re.str t).Lang u) : u = t.data :=
  eq_of_lang_lits h

theorem lang_plus {k : CharClass} {g : Bool} {u : List Char} :
    (Re.plus k g).Lang u ↔ ∃ c w, u = c :: w ∧ k.contains c ∧ ∀ x ∈ w, k.contains x := by
  constructor
  · rintro ⟨_, w, rfl, ⟨c, rfl, hc⟩, hw⟩
    exact ⟨c, w, rfl, hc, hw⟩
  · rintro ⟨c, w, rfl, hc, hw⟩
    exact ⟨[c], w, rfl, ⟨c, rfl, hc⟩, hw⟩

/-- A capture that a group of `r` can make: a string of that group's language. -/
def Captured (r : Re) (p : Nat × List Char) : Prop :=
  ∃ q ∈ r.groups, q.1 = p.1 ∧ q.2.Lang p.2

theorem Captured.mono {r r' : Re} {p : Nat × List Char} (h : Captured r p)
    (hsub : r.groups ⊆ r'.groups) : Captured r' p :=
  let ⟨q, hq, hp⟩ := h
  ⟨q, hsub hq, hp⟩

section Soundness

variable {next : Cont} {caps res : Caps}

theorem starMatch_sound {k : CharClass} {g : Bool} {s : List Char}
    (h : starMatch k g next s caps = some res) :
    ∃ u v, s = u ++ v ∧ (∀ c ∈ u, k.contains c) ∧ next v caps = some res := by
  induction s with
  | nil => exact ⟨[], [], rfl, by simp, h⟩
  | cons c cs ih =>
    unfold starMatch at h
    split_ifs at h with hk hg
    · rcases (Option.orElse_eq_some _ _ _).mp h with h | ⟨-, h⟩
      · obtain ⟨u, v, rfl, hu, hv⟩ := ih h
        exact ⟨c :: u, v, rfl, by simpa [hk] using hu, hv⟩
      · exact ⟨[], c :: cs, rfl, by simp, h⟩
    · rcases (Option.orElse_eq_some _ _ _).mp h with h | ⟨-, h⟩
      · exact ⟨[], c :: cs, rfl, by simp, h⟩
      · obtain ⟨u, v, rfl, hu, hv⟩ := ih h
        exact ⟨c :: u, v, rfl, by simpa [hk] using hu, hv⟩
    · exact ⟨[], c :: cs, rfl, by simp, h⟩

/-- The matcher is sound: a match consumes a string of the pattern's language,
adds captures each some group of the pattern can make, one at least for every
group it always passes, and hands the rest to `next`. -/
theorem m_sound {r : Re} {s : List Char} (h : r.m s caps next = some res) :
    ∃ u v new, s = u ++ v ∧ r.Lang u ∧ (∀ p ∈ new, Captured r p) ∧
      (∀ i ∈ r.always, ∃ t, (i, t) ∈ new) ∧ next v (new ++ caps) = some res := by
  induction r generalizing s caps next with
  | empty => exact ⟨[], s, [], rfl, rfl, by simp, by simp [Re.always], h⟩
  | cls k =>
    cases s with
    | nil => cases h
    | cons c cs =>
      rw [m_cls_cons] at h
      split_ifs at h with hk
      exact ⟨[c], cs, [], rfl, ⟨c, rfl, hk⟩, by simp, by simp [Re.always], h⟩
  | seq a b iha ihb =>
    obtain ⟨u₁, v₁, new₁, rfl, hu₁, hc₁, ha₁, h₁⟩ := iha h
    obtain ⟨u₂, v₂, new₂, rfl, hu₂, hc₂, ha₂, h₂⟩ := ihb h₁
    refine ⟨u₁ ++ u₂, v₂, new₂ ++ new₁, by simp, ⟨u₁, u₂, rfl, hu₁, hu₂⟩, ?_, ?_,
      by rwa [List.append_assoc]⟩
    · simp only [List.mem_append]
      rintro p (hp | hp)
      exacts [(hc₂ p hp).mono (List.subset_append_right _ _),
        (hc₁ p hp).mono (List.subset_append_left _ _)]
    · simp only [Re.always, List.mem_append]
      rintro i (hi | hi)
      exacts [(ha₁ i hi).imp fun _ => .inr, (ha₂ i hi).imp fun _ => .inl]
  | alt a b iha ihb =>
    rcases (Option.orElse_eq_some _ _ _).mp h with h | ⟨-, h⟩
    · obtain ⟨u, v, new, rfl, hu, hc, -, hn⟩ := iha h
      exact ⟨u, v, new, rfl, .inl hu, fun p hp => (hc p hp).mono (List.subset_append_left _ _),
        by simp [Re.always], hn⟩
    · obtain ⟨u, v, new, rfl, hu, hc, -, hn⟩ := ihb h
      exact ⟨u, v, new, rfl, .inr hu, fun p hp => (hc p hp).mono (List.subset_append_right _ _),
        by simp [Re.always], hn⟩
  | star k g =>
    obtain ⟨u, v, rfl, hu, hv⟩ := starMatch_sound h
    exact ⟨u, v, [], rfl, hu, by simp, by simp [Re.always], hv⟩
  | group i r ih =>
    obtain ⟨u, v, new, rfl, hu, hc, ha, hn⟩ := ih h
    rw [take_append_sub_length] at hn
    refine ⟨u, v, (i, u) :: new, rfl, hu, ?_, ?_, hn⟩
    · rintro p (_ | ⟨_, hp⟩)
      exacts [⟨(i, r), List.mem_cons_self _ _, rfl, hu⟩,
        (hc p hp).mono (List.subset_cons_self _ _)]
    · rintro j (_ | ⟨_, hj⟩)
      exacts [⟨u, List.mem_cons_self _ _⟩, (ha j hj).imp fun _ => List.mem_cons_of_mem _]

theorem search_sound {r : Re} {s : List Char} (h : search r s = some caps) :
    (∀ p ∈ caps, Captured r p) ∧ ∀ i ∈ r.always, ∃ t, (i, t) ∈ caps := by
  have found : ∀ {s'}, r.m s' [] (fun _ caps => some caps) = some caps →
      (∀ p ∈ caps, Captured r p) ∧ ∀ i ∈ r.always, ∃ t, (i, t) ∈ caps := fun h' => by
    obtain ⟨_, _, new, -, -, hc, ha, hn⟩ := m_sound h'
    rw [List.append_nil, Option.some.injEq] at hn
    exact hn ▸ ⟨hc, ha⟩
  induction s with
  | nil => exact found h
  | cons c cs ih =>
    rcases (Option.orElse_eq_some _ _ _).mp h with h | ⟨-, h⟩
    exacts [found h, ih h]

theorem lookup_of_search {r : Re} {s : List Char} (h : search r s = some caps) {i : Nat}
    (hi : i ∈ r.always) : ∃ t, caps.lookup i = some t ∧ Captured r (i, t) := by
  obtain ⟨hc, ha⟩ := search_sound h
  obtain ⟨t, ht⟩ := ha i hi
  obtain ⟨t', h'⟩ := Option.isSome_iff_exists.mp
    (List.lookup_isSome_iff.mpr ⟨(i, t), ht, beq_self_eq_true i⟩)
  obtain ⟨l₁, l₂, hcaps, -⟩ := List.lookup_eq_some_iff.mp h'
  exact ⟨t', h', hc _ (hcaps ▸ List.mem_append_right _ (List.mem_cons_self _ _))⟩

end Soundness

/-! ### Completeness

The matcher gives up a choice only when the rest of the pattern rejects it, so
it finds a match whenever the input has one: a search succeeds exactly when some
substring of the input is in the pattern's language. -/

theorem isSome_orElse {α : Type} (x y : Option α) :
    (x <|> y).isSome = (x.isSome || y.isSome) := by
  cases x <;> rfl

section Completeness

variable {next : Cont} {caps : Caps}

theorem starMatch_isSome_of_next {k : CharClass} {g : Bool} {s : List Char}
    (h : (next s caps).isSome) : (starMatch k g next s caps).isSome := by
  cases s with
  | nil => exact h
  | cons c cs =>
    unfold starMatch
    split_ifs <;> simp [isSome_orElse, h]

theorem starMatch_complete {k : CharClass} {g : Bool} {u v : List Char}
    (hu : ∀ c ∈ u, k.contains c) (hv : (next v caps).isSome) :
    (starMatch k g next (u ++ v) caps).isSome := by
  induction u with
  | nil => exact starMatch_isSome_of_next hv
  | cons c u ih =>
    have hrest := ih fun x hx => hu x (List.mem_cons_of_mem c hx)
    rw [List.cons_append, starMatch, if_pos (hu c (List.mem_cons_self c u))]
    split_ifs <;> simp [isSome_orElse, hrest]

/-- The matcher is complete: when the front of the input is a string of the
pattern's language and `next` accepts the rest whatever the captures, the match
succeeds. -/
theorem m_complete {r : Re} {u v : List Char} (hu : r.Lang u)
    (hv : ∀ caps', (next v caps').isSome) : (r.m (u ++ v) caps next).isSome := by
  induction r generalizing u v caps next with
  | empty =>
    obtain rfl : u = [] := hu
    exact hv caps
  | cls k =>
    obtain ⟨c, rfl, hc⟩ := hu
    rw [List.singleton_append, m_cls_cons, if_pos hc]
    exact hv caps
  | seq a b iha ihb =>
    obtain ⟨u₁, u₂, rfl, h₁, h₂⟩ := hu
    rw [List.append_assoc, m_seq]
    exact iha h₁ fun _ => ihb h₂ hv
  | alt a b iha ihb =>
    rw [m_alt, isSome_orElse]
    rcases hu with h | h
    · simp [iha h hv]
    · simp [ihb h hv]
  | star k g => exact starMatch_complete hu (hv caps)
  | group i r ih => exact ih hu fun _ => hv _

end Completeness

theorem search_complete {r : Re} {pre u v : List Char} (hu : r.Lang u) :
    (search r (pre ++ u ++ v)).isSome := by
  induction pre with
  | nil =>
    have h : (r.m (u ++ v) [] fun _ caps => some caps).isSome := m_complete hu fun _ => rfl
    rw [List.nil_append]
    cases hs : u ++ v with
    | nil => rw [hs] at h; exact h
    | cons c cs => rw [hs] at h; simp only [search, isSome_orElse, h, Bool.true_or]
  | cons c pre ih =>
    show (search r (c :: (pre ++ u ++ v))).isSome
    rw [search, isSome_orElse, ih, Bool.or_true]

theorem exists_lang_of_search {r : Re} {s : List Char} {caps : Caps} (h : search r s = some caps) :
    ∃ pre u v, s = pre ++ u ++ v ∧ r.Lang u := by
  induction s with
  | nil =>
    obtain ⟨u, v, -, hs, hu, -⟩ := m_sound h
    exact ⟨[], u, v, hs, hu⟩
  | cons c cs ih =>
    rcases (Option.orElse_eq_some _ _ _).mp h with h | ⟨-, h⟩
    · obtain ⟨u, v, -, hs, hu, -⟩ := m_sound h
      exact ⟨[], u, v, hs, hu⟩
    · obtain ⟨pre, u, v, rfl, hu⟩ := ih h
      exact ⟨c :: pre, u, v, rfl, hu⟩

theorem search_isSome_iff {r : Re} {s : List Char} :
    (search r s).isSome ↔ ∃ pre u v, s = pre ++ u ++ v ∧ r.Lang u := by
  refine ⟨fun h => ?_, fun ⟨pre, u, v, hs, hu⟩ => hs ▸ search_complete hu⟩
  obtain ⟨caps, hc⟩ := Option.isSome_iff_exists.mp h
  exact exists_lang_of_search hc

end CephExporter.Regexp

namespace CephExporter

open Regexp

/-- A compiled `regexp.Regexp`: its pattern and `SubexpNames()`, the name of
each group with `""` for the whole match and for unnamed groups. -/
structure Regexp where
  expr : Re
  subexpNames : List String

/-- `Regexp.FindStringSubmatch`: the whole match and each group's text, `""`
for a group that took no part; no entries when nothing matches. -/
def Regexp.findStringSubmatch (re : Regexp) (s : String) : List String :=
  match search (.group 0 re.expr) s.data with
  | none => []
  | some caps => (List.range re.subexpNames.length).map fun i => ⟨(caps.lookup i).getD []⟩

end CephExporter
