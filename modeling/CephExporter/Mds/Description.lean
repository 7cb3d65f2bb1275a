import CephExporter.Go.Regexp

/-! # Parsing blocked-op descriptions

`extractOpFromDescription` runs `descRegex` over the description of a blocked
client request and reads its named groups. Over a description of the documented
shape whose client id and request id have two digits or more, it yields the
client id, the verb and the inode. Each id group is `[0-9].+?`, which needs two
runes, so an id of one digit makes the match fail or shift.
-/

namespace CephExporter.Mds

instance decEqExcept {ε α : Type} [DecidableEq ε] [DecidableEq α] : DecidableEq (Except ε α)
  | .error a, .error b => decidable_of_iff (a = b) ⟨congrArg _, Except.error.inj⟩
  | .ok a, .ok b => decidable_of_iff (a = b) ⟨congrArg _, Except.ok.inj⟩
  | .error _, .ok _ => isFalse fun h => Except.noConfusion h
  | .ok _, .error _ => isFalse fun h => Except.noConfusion h

open Regexp

/-- `[0-9a-fA-F]`. -/
def hexDigit : CharClass := ⟨[('0', '9'), ('a', 'f'), ('A', 'F')], false⟩

/-- `[^a-zA-Z\d:]`. -/
def notAlnumColon : CharClass := ⟨[('a', 'z'), ('A', 'Z'), ('0', '9'), (':', ':')], true⟩

/-- `[0-9].+?`: the pattern of both `clientid` and `cid`. -/
def idGroup (i : Nat) : Re := .group i (.seq (.cls digit) (.plus anyNotNL false))

/-- `(?P<inode>0x[0-9a-fA-F]+|[0-9]+)`. -/
def inodeGroup : Re := .group 4 (.alt (.seq (.str "0x") (.plus hexDigit true)) (.plus digit true))

/-- `descRegex`:
`client_request\(client\.(?P<clientid>[0-9].+?):(?P<cid>[0-9].+?)\s(?P<fsoptype>\w+)\s.*#(?P<inode>0x[0-9a-fA-F]+|[0-9]+)[^a-zA-Z\d:].*` -/
def descRegex : Regexp where
  expr := .cat [.str "client_request(client.", idGroup 1, .cls (lit ':'), idGroup 2, .cls space,
    .group 3 (.plus word true), .cls space, .star anyNotNL true, .cls (lit '#'), inodeGroup,
    .cls notAlnumColon, .star anyNotNL true]
  subexpNames := ["", "clientid", "cid", "fsoptype", "inode"]

@[simp] theorem subexpNames_descRegex :
    descRegex.subexpNames = ["", "clientid", "cid", "fsoptype", "inode"] := rfl

def errInvalidDescriptionFormat : String := "invalid op description, unable to parse %q"

/-- `fmt.Errorf(format, args...)`, kept as its format and arguments. -/
structure Errorf where
  format : String
  args : List String
  deriving DecidableEq, Repr

structure OpDesc where
  fsOpType : String
  inode : String
  clientID : String
  deriving DecidableEq, Repr

/-- `getGroups`: each named group's text by name, from a second
`FindStringSubmatch`. Later names overwrite earlier ones, as map assignment
does. The guard `i <= len(match)` lets `i = len(match)` through, where Go would
index out of range; a match has an entry per name, so that index never comes. -/
def getGroups (regEx : Regexp) (input : String) : List (String × String) :=
  let m := regEx.findStringSubmatch input
  regEx.subexpNames.enum.foldl (fun groupsMap (i, name) =>
    if 0 < i ∧ i ≤ m.length then (name, m.getD i "") :: groupsMap else groupsMap) []

/-- `extractOpFromDescription`: the error, when the pattern does not match, is
`fmt.Errorf(errInvalidDescriptionFormat, desc)`. -/
def extractOpFromDescription (desc : String) : Except Errorf OpDesc :=
  if (descRegex.findStringSubmatch desc).length = 0 then .error ⟨errInvalidDescriptionFormat, [desc]⟩
  else
    let groups := getGroups descRegex desc
    match groups.lookup "clientid", groups.lookup "fsoptype", groups.lookup "inode" with
    | some clientID, some fsoptype, some inode => .ok ⟨fsoptype, inode, clientID⟩
    | _, _, _ => .error ⟨errInvalidDescriptionFormat, [desc]⟩

/-! ### Character classes -/

section Classes

variable {c : Char}

theorem anyNotNL_iff : anyNotNL.contains c ↔ c ≠ '\n' := by
  simp [CharClass.contains, anyNotNL, eq_iff_toNat]

theorem anyNotNL_of_digit (h : digit.contains c) : anyNotNL.contains c := by
  simp [CharClass.contains, digit, anyNotNL] at *; omega

theorem colon_of_digit (h : digit.contains c) : (lit ':').contains c = false := by
  simp [CharClass.contains, digit] at h; simp [contains_lit, eq_iff_toNat]; omega

theorem space_of_digit (h : digit.contains c) : space.contains c = false := by
  simp [CharClass.contains, digit, space] at *; omega

theorem x_of_digit (h : digit.contains c) : (lit 'x').contains c = false := by
  simp [CharClass.contains, digit] at h; simp [contains_lit, eq_iff_toNat]; omega

theorem hash_of_digit (h : digit.contains c) : c ≠ '#' := by
  simp [eq_iff_toNat, CharClass.contains, digit] at *; omega

theorem hash_of_hexDigit (h : hexDigit.contains c) : c ≠ '#' := by
  simp [eq_iff_toNat, CharClass.contains, hexDigit] at *; omega

theorem hexDigit_of_notAlnumColon (h : notAlnumColon.contains c) : hexDigit.contains c = false := by
  simp [CharClass.contains, hexDigit, notAlnumColon] at *; omega

theorem digit_of_notAlnumColon (h : notAlnumColon.contains c) : digit.contains c = false := by
  simp [CharClass.contains, digit, notAlnumColon] at *; omega

theorem x_of_notAlnumColon (h : notAlnumColon.contains c) : (lit 'x').contains c = false := by
  simp [CharClass.contains, notAlnumColon] at h; simp [contains_lit, eq_iff_toNat]; omega

end Classes

/-! ### The groups of `descRegex` -/

/-- An inode as descriptions write it: `0x` and hex digits, or decimal digits. -/
def IsInode (I : List Char) : Prop :=
  (∃ H, I = '0' :: 'x' :: H ∧ H ≠ [] ∧ ∀ c ∈ H, hexDigit.contains c) ∨
    (I ≠ [] ∧ ∀ c ∈ I, digit.contains c)

theorem IsInode.hash_not_mem {I : List Char} (hI : IsInode I) : '#' ∉ I := by
  rintro hm
  rcases hI with ⟨H, rfl, -, hH⟩ | ⟨-, hd⟩
  · simp only [List.mem_cons] at hm
    rcases hm with h | h | h
    · simp [eq_iff_toNat] at h
    · simp [eq_iff_toNat] at h
    · exact hash_of_hexDigit (hH _ h) rfl
  · exact hash_of_digit (hd _ hm) rfl

section Groups

variable {caps r : Caps} {next : Cont}

theorem m_idGroup {i : Nat} {C s : List Char} (hC : 2 ≤ C.length) (hd : ∀ c ∈ C, digit.contains c)
    (hnext : ∀ c cs caps', digit.contains c → next (c :: cs) caps' = none)
    (hs : next s ((i, C) :: caps) = some r) : (idGroup i).m (C ++ s) caps next = some r := by
  obtain ⟨c₀, c₁, C', rfl⟩ : ∃ c₀ c₁ C', C = c₀ :: c₁ :: C' := by
    match C, hC with
    | c₀ :: c₁ :: C', _ => exact ⟨c₀, c₁, C', rfl⟩
  have h₀ := hd c₀ (by simp)
  have h₁ := anyNotNL_of_digit (hd c₁ (by simp))
  rw [idGroup, m_group, m_seq, List.cons_append, List.cons_append, m_cls_cons, if_pos h₀, Re.plus,
    m_seq, m_cls_cons, if_pos h₁, m_star]
  refine starMatch_lazy_append (fun c hc => ⟨anyNotNL_of_digit (hd c (by simp [hc])),
    fun cs => hnext c cs _ (hd c (by simp [hc]))⟩) ?_
  convert hs using 4
  exact take_append_sub_length (c₀ :: c₁ :: C') s

theorem m_inodeGroup {I s : List Char} (hI : IsInode I) (hs : ∀ c ∈ s.head?, notAlnumColon.contains c)
    (h : next s ((4, I) :: caps) = some r) : inodeGroup.m (I ++ s) caps next = some r := by
  have hhex : ∀ c ∈ s.head?, hexDigit.contains c = false :=
    fun c hc => hexDigit_of_notAlnumColon (hs c hc)
  have hdig : ∀ c ∈ s.head?, digit.contains c = false :=
    fun c hc => digit_of_notAlnumColon (hs c hc)
  simp only [inodeGroup, m_group, m_alt]
  rcases hI with ⟨H, rfl, hH, hHx⟩ | ⟨hI, hId⟩
  · rw [m_seq, show '0' :: 'x' :: H ++ s = "0x".data ++ (H ++ s) from rfl, m_str,
      m_plus_greedy hH hHx hhex
        (by convert h using 4; exact take_append_sub_length ('0' :: 'x' :: H) s)]
    rfl
  · have hfirst : (Re.seq (.str "0x") (.plus hexDigit true)).m (I ++ s) caps
        (fun s' caps' => next s' ((4, (I ++ s).take ((I ++ s).length - s'.length)) :: caps')) = none := by
      obtain ⟨d, I', rfl⟩ := List.exists_cons_of_ne_nil hI
      have hx : ∀ e es, I' ++ s = e :: es → (lit 'x').contains e = false := by
        intro e es he
        cases I' with
        | cons e' I' => exact (List.cons.inj he).1 ▸ x_of_digit (hId e' (by simp))
        | nil => exact x_of_notAlnumColon (hs e (by simp_all))
      rw [m_seq, List.cons_append]
      show (Re.cat [.cls (lit '0'), .cls (lit 'x')]).m (d :: (I' ++ s)) caps _ = none
      rw [m_cat_cons, m_cls_cons]
      split_ifs
      · rw [m_cat_cons]
        cases he : I' ++ s with
        | nil => rfl
        | cons e es => rw [m_cls_cons, if_neg (by simp [hx e es he])]
      · rfl
    rw [hfirst, m_plus_greedy hI hId hdig (by simpa using h)]
    rfl

theorem m_anyHash {M w : List Char} {rest : List Re} (hM : '\n' ∉ M) (hw : '#' ∉ w)
    (h : (Re.cat rest).m w caps next = some r) :
    (Re.cat (.star anyNotNL true :: .cls (lit '#') :: rest)).m (M ++ '#' :: w) caps next =
      some r := by
  rw [m_cat_cons, m_star]
  refine starMatch_greedy_append (fun c hc => anyNotNL_iff.mpr fun e : c = '\n' => hM (e ▸ hc)) ?_
  rw [starMatch, if_pos (anyNotNL_iff.mpr (by decide)), if_pos rfl,
    starMatch_none true rfl fun c hc cs => ?_]
  · simpa using h
  · rw [m_cat_cons, m_cls_cons, contains_lit, decide_eq_false fun e : c = '#' => hw (e ▸ hc)]
    rfl

end Groups

theorem extractOpFromDescription_of_search {d : String} {caps : Caps}
    (h : search (.group 0 descRegex.expr) d.data = some caps) :
    extractOpFromDescription d =
      .ok ⟨⟨(caps.lookup 3).getD []⟩, ⟨(caps.lookup 4).getD []⟩, ⟨(caps.lookup 1).getD []⟩⟩ := by
  have hm : descRegex.findStringSubmatch d = (List.range 5).map fun i => ⟨(caps.lookup i).getD []⟩ := by
    simp only [Regexp.findStringSubmatch, h, subexpNames_descRegex]
    rfl
  unfold extractOpFromDescription getGroups
  rw [hm]
  rfl

/-- `extractOpFromDescription` fails exactly when `descRegex` does not match,
and then with `errInvalidDescriptionFormat` and the description: after a match
the three group lookups always succeed. -/
theorem extractOpFromDescription_eq_error {d : String} {e : Errorf} :
    extractOpFromDescription d = .error e ↔
      search (.group 0 descRegex.expr) d.data = none ∧ e = ⟨errInvalidDescriptionFormat, [d]⟩ := by
  cases h : search (.group 0 descRegex.expr) d.data with
  | none => simp [extractOpFromDescription, Regexp.findStringSubmatch, h, eq_comm]
  | some caps => simp [extractOpFromDescription_of_search h]

/-! ### What a successful parse returns -/

/-- The form of the `clientid` and `cid` groups, `[0-9].+?`: a digit, then at
least one more rune, none of them a newline. -/
def IsId (u : List Char) : Prop :=
  ∃ c w, u = c :: w ∧ digit.contains c ∧ w ≠ [] ∧ '\n' ∉ w

theorem always_descRegex : (Re.group 0 descRegex.expr).always = [0, 1, 2, 3, 4] := by
  simp [descRegex, Re.cat, Re.always, idGroup, inodeGroup]

theorem captured_descRegex {i : Nat} {t : List Char} (h : Captured (.group 0 descRegex.expr) (i, t)) :
    (i = 1 → IsId t) ∧ (i = 3 → t ≠ [] ∧ ∀ c ∈ t, word.contains c) ∧ (i = 4 → IsInode t) := by
  obtain ⟨q, hq, hi, hl⟩ := h
  simp [descRegex, Re.cat, Re.groups, idGroup, inodeGroup] at hq
  rcases hq with rfl | rfl | rfl | rfl | rfl <;> dsimp only at hi <;> subst hi
  · simp
  · -- `clientid`
    refine ⟨fun _ => ?_, by simp, by simp⟩
    obtain ⟨_, u, rfl, ⟨c, rfl, hc⟩, hu⟩ := hl
    obtain ⟨c', w, rfl, hc', hw⟩ := lang_plus.mp hu
    refine ⟨c, c' :: w, rfl, hc, List.cons_ne_nil _ _, fun hn => ?_⟩
    rcases List.mem_cons.mp hn with e | hn
    exacts [anyNotNL_iff.mp hc' e.symm, anyNotNL_iff.mp (hw _ hn) rfl]
  · simp
  · -- `fsoptype`
    refine ⟨by simp, fun _ => ?_, by simp⟩
    obtain ⟨c, w, rfl, hc, hw⟩ := lang_plus.mp hl
    exact ⟨List.cons_ne_nil _ _, List.forall_mem_cons.mpr ⟨hc, hw⟩⟩
  · -- `inode`
    refine ⟨by simp, by simp, fun _ => ?_⟩
    rcases hl with ⟨u, v, rfl, hu, hv⟩ | hv
    · obtain ⟨c, w, rfl, hc, hw⟩ := lang_plus.mp hv
      rw [eq_of_lang_str hu]
      exact .inl ⟨c :: w, rfl, List.cons_ne_nil _ _, List.forall_mem_cons.mpr ⟨hc, hw⟩⟩
    · obtain ⟨c, w, rfl, hc, hw⟩ := lang_plus.mp hv
      exact .inr ⟨List.cons_ne_nil _ _, List.forall_mem_cons.mpr ⟨hc, hw⟩⟩

/-- Whatever `extractOpFromDescription` returns is well formed: a client id of
the `clientid` group's form, a verb of one or more word characters, and an
inode that is `0x` and hex digits, or decimal digits. -/
theorem extractOpFromDescription_ok {d : String} {o : OpDesc}
    (h : extractOpFromDescription d = .ok o) :
    IsId o.clientID.data ∧ o.fsOpType.data ≠ [] ∧ (∀ c ∈ o.fsOpType.data, word.contains c) ∧
      IsInode o.inode.data := by
  cases hs : search (.group 0 descRegex.expr) d.data with
  | none => simp [extractOpFromDescription, Regexp.findStringSubmatch, hs] at h
  | some caps =>
    rw [extractOpFromDescription_of_search hs, Except.ok.injEq] at h
    subst h
    obtain ⟨t₁, h₁, c₁⟩ := lookup_of_search hs (i := 1) (by simp [always_descRegex])
    obtain ⟨t₃, h₃, c₃⟩ := lookup_of_search hs (i := 3) (by simp [always_descRegex])
    obtain ⟨t₄, h₄, c₄⟩ := lookup_of_search hs (i := 4) (by simp [always_descRegex])
    simp only [h₁, h₃, h₄, Option.getD_some]
    exact ⟨(captured_descRegex c₁).1 rfl, ((captured_descRegex c₃).2.1 rfl).1,
      ((captured_descRegex c₃).2.1 rfl).2, (captured_descRegex c₄).2.2 rfl⟩

theorem extractOpFromDescription_ok_getattr :
    IsId "4125".data ∧ "getattr".data ≠ [] ∧ (∀ c ∈ "getattr".data, word.contains c) ∧
      IsInode "0x1".data :=
  extractOpFromDescription_ok (d := "client_request(client.4125:10 getattr #0x1 caller_uid=0, caller_gid=0)")
    (o := ⟨"getattr", "0x1", "4125"⟩) (by set_option maxRecDepth 4000 in decide)

/-- `extractOpFromDescription` accepts exactly the descriptions that contain a
string of the language of `descRegex`: the backtracking search misses no match. -/
theorem extractOpFromDescription_isOk_iff (d : String) :
    (∃ o, extractOpFromDescription d = .ok o) ↔
      ∃ pre u v, d.data = pre ++ u ++ v ∧ descRegex.expr.Lang u := by
  have key : (search (.group 0 descRegex.expr) d.data).isSome ↔
      ∃ pre u v, d.data = pre ++ u ++ v ∧ descRegex.expr.Lang u := search_isSome_iff
  rw [← key]
  cases hs : search (.group 0 descRegex.expr) d.data with
  | none => simp [extractOpFromDescription, Regexp.findStringSubmatch, hs]
  | some caps => simp [extractOpFromDescription_of_search hs]

/-- A description whose client id and request id have two digits or more, whose
verb is a word, and whose inode, after the only `#` from there on, is followed
by a rune that is not a letter, a digit or `:`, yields the ids, the verb and the
inode. -/
theorem extractOpFromDescription_of_form {C R V M I T : String} {x : Char}
    (hC : 2 ≤ C.length) (hCd : ∀ c ∈ C.data, digit.contains c)
    (hR : 2 ≤ R.length) (hRd : ∀ c ∈ R.data, digit.contains c)
    (hV : V ≠ "") (hVw : ∀ c ∈ V.data, word.contains c) (hM : '\n' ∉ M.data) (hI : IsInode I.data)
    (hx : notAlnumColon.contains x) (hxh : x ≠ '#') (hT : '#' ∉ T.data) (hTn : '\n' ∉ T.data) :
    extractOpFromDescription
        ("client_request(client." ++ C ++ ":" ++ R ++ " " ++ V ++ " " ++ M ++ "#" ++ I ++
          x.toString ++ T) = .ok ⟨V, I, C⟩ := by
  have hmatch : ∀ (next : Cont) (r : Caps), next [] [(4, I.data), (3, V.data), (2, R.data), (1, C.data)] = some r →
      descRegex.expr.m ("client_request(client.".data ++ (C.data ++ ':' :: (R.data ++ ' ' :: (V.data ++
        ' ' :: (M.data ++ '#' :: (I.data ++ x :: T.data)))))) [] next = some r := by
    intro next r hnext
    rw [descRegex, m_cat_cons, m_str, m_cat_cons]
    refine m_idGroup hC hCd (fun c cs caps' hc => ?_) ?_
    · simp only [m_cat_cons, m_cls_cons, colon_of_digit hc]
      rfl
    rw [m_cat_cons, m_cls_cons, if_pos (contains_lit_self ':'), m_cat_cons]
    refine m_idGroup hR hRd (fun c cs caps' hc => ?_) ?_
    · simp only [m_cat_cons, m_cls_cons, space_of_digit hc]
      rfl
    rw [m_cat_cons, m_cls_cons, if_pos (by decide), m_cat_cons, m_group]
    refine m_plus_greedy (by simpa [String.ext_iff] using hV) hVw
      (fun c hc => by cases hc; decide) ?_
    rw [take_append_sub_length, m_cat_cons, m_cls_cons, if_pos (by decide)]
    refine m_anyHash hM (by simp [hI.hash_not_mem, hxh.symm, hT]) ?_
    rw [m_cat_cons]
    refine m_inodeGroup hI (by simp [hx]) ?_
    rw [m_cat_cons, m_cls_cons, if_pos hx, m_cat_cons, m_star, ← List.append_nil T.data]
    exact starMatch_greedy_append (fun c hc => anyNotNL_iff.mpr fun e : c = '\n' => hTn (e ▸ hc))
      hnext
  have hdata : ("client_request(client." ++ C ++ ":" ++ R ++ " " ++ V ++ " " ++ M ++ "#" ++ I ++
      x.toString ++ T).data = "client_request(client.".data ++ (C.data ++ ':' :: (R.data ++ ' ' ::
        (V.data ++ ' ' :: (M.data ++ '#' :: (I.data ++ x :: T.data))))) := by
    simp [List.append_assoc, Char.toString, String.singleton]
  have hfind : search (.group 0 descRegex.expr) ("client_request(client." ++ C ++ ":" ++ R ++ " " ++
      V ++ " " ++ M ++ "#" ++ I ++ x.toString ++ T).data = some [(0, ("client_request(client." ++ C ++
        ":" ++ R ++ " " ++ V ++ " " ++ M ++ "#" ++ I ++ x.toString ++ T).data), (4, I.data),
        (3, V.data), (2, R.data), (1, C.data)] := by
    rw [hdata]
    exact search_of_m (by rw [m_group]; exact hmatch _ _ (by simp))
  rw [extractOpFromDescription_of_search hfind]
  rfl

theorem extractOpFromDescription_rmdir :
    extractOpFromDescription ("client_request(client." ++ "20001974182" ++ ":" ++ "344151" ++ " " ++
      "rmdir" ++ " " ++ "" ++ "#" ++ "0x10000000030" ++ '/'.toString ++
      "72a26231-ac24-4f69-9350-8ebc5444c9ea 2024-02-13T22:11:00.196767+0000 caller_uid=0") =
      .ok ⟨"rmdir", "0x10000000030", "20001974182"⟩ :=
  extractOpFromDescription_of_form (by decide) (by decide) (by decide) (by decide) (by decide)
    (by decide) (by decide) (.inl ⟨"10000000030".data, rfl, by decide, by decide⟩) (by decide)
    (by decide) (by decide) (by decide)

/-- The first request of a client session has request id 1: its description
does not match, and the op is dropped. -/
theorem extractOpFromDescription_tid_one :
    extractOpFromDescription "client_request(client.4125:1 getattr #0x1 caller_uid=0, caller_gid=0)" =
      .error ⟨errInvalidDescriptionFormat,
        ["client_request(client.4125:1 getattr #0x1 caller_uid=0, caller_gid=0)"]⟩ := by
  set_option maxRecDepth 4000 in decide

end CephExporter.Mds
