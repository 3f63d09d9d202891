import Mathlib.Data.List.DropRight
import Mathlib.Data.List.Infix

/-!
# URLs

The parser of the URL standard, without a base, for the special schemes other than `file`. A state
of its machine is a function of the code points that are left, and the host parser is a parameter.
The second part says where a path leads that has nothing to encode and no `..`.
-/

namespace Url

variable {H : Type}

/-! ## Code points -/

def isC0ControlOrSpace (c : Char) : Bool := c.toNat ≤ 0x20

def isTabOrNewline (c : Char) : Bool := "\t\n\r".toList.contains c

/-- A special URL may have either between its segments. -/
def isSlash (c : Char) : Bool := c == '/' || c == '\\'

def endsAuthority (c : Char) : Bool := isSlash c || c == '?' || c == '#'

/-- What holds of the ASCII code points is checked one by one. -/
theorem forall_ascii {P : Char → Prop} (h : ∀ n < 128, P (Char.ofNat n)) {c : Char}
    (hc : c.toNat < 128) : P c :=
  Char.ofNat_toNat c ▸ h c.toNat hc

theorem isAlphanum_ascii {c : Char} (h : c.isAlphanum = true) : c.toNat < 128 := by
  have hbelow : ∀ d : Char, d.toNat < 128 → c.val ≤ d.val → c.toNat < 128 :=
    fun d hd hle => Nat.lt_of_le_of_lt (UInt32.le_iff_toNat_le.1 hle) hd
  rcases Bool.or_eq_true_iff.1 h with halpha | hdigit
  · rcases Bool.or_eq_true_iff.1 halpha with hupper | hlower
    · exact hbelow 'Z' (by decide) (of_decide_eq_true hupper).2
    · exact hbelow 'z' (by decide) (of_decide_eq_true (Bool.and_eq_true_iff.1 hlower).2)
  · exact hbelow '9' (by decide) (of_decide_eq_true (Bool.and_eq_true_iff.1 hdigit).2)

/-! ## Percent-encoding -/

def inC0ControlSet (c : Char) : Bool := c.toNat ≤ 0x1F || 0x7E < c.toNat

def inFragmentSet (c : Char) : Bool := inC0ControlSet c || " \"<>`".toList.contains c

def inSpecialQuerySet (c : Char) : Bool := inC0ControlSet c || " \"#<>'".toList.contains c

def inPathSet (c : Char) : Bool := inC0ControlSet c || " \"#<>?^`\x7b\x7d".toList.contains c

def inUserinfoSet (c : Char) : Bool := inPathSet c || "/:;=@[\\]|".toList.contains c

def percentEncodeByte (b : UInt8) : List Char :=
  ['%', "0123456789ABCDEF".toList.getD (b.toNat / 16) '0',
    "0123456789ABCDEF".toList.getD (b.toNat % 16) '0']

/-- The code points that `inSet` holds of are encoded, the others stay. -/
def utf8PercentEncode (inSet : Char → Bool) (c : Char) : List Char :=
  if inSet c then (String.utf8EncodeChar c).flatMap percentEncodeByte else [c]

theorem flatMap_utf8PercentEncode {inSet : Char → Bool} {cs : List Char}
    (h : ∀ c ∈ cs, inSet c = false) : cs.flatMap (utf8PercentEncode inSet) = cs := by
  induction cs with
  | nil => rfl
  | cons c cs ih =>
    rw [List.flatMap_cons, ih fun d hd => h d (List.mem_cons_of_mem _ hd), utf8PercentEncode,
      h c List.mem_cons_self]
    rfl

/-! ## Records -/

inductive Scheme where
  | ftp | http | https | ws | wss
  deriving DecidableEq, Repr

def Scheme.text : Scheme → List Char
  | ftp => "ftp".toList
  | http => "http".toList
  | https => "https".toList
  | ws => "ws".toList
  | wss => "wss".toList

def Scheme.defaultPort : Scheme → Nat
  | ftp => 21
  | http | ws => 80
  | https | wss => 443

structure Authority (H : Type) where
  username : List Char
  password : List Char
  host : H
  port : Option Nat
  deriving DecidableEq, Repr

structure Record (H : Type) extends Authority H where
  scheme : Scheme
  path : List (List Char)
  query : Option (List Char)
  fragment : Option (List Char)
  deriving DecidableEq, Repr

/-- The URL path serializer. -/
def pathText (path : List (List Char)) : List Char := path.flatMap fun segment => '/' :: segment

def Record.pathname (r : Record H) : List Char := pathText r.path

/-! ## The states of the parser -/

/-- What the parser removes first. -/
def clean (input : List Char) : List Char :=
  ((input.dropWhile isC0ControlOrSpace).rdropWhile isC0ControlOrSpace).filter (!isTabOrNewline ·)

/-- The scheme start and scheme states. -/
def schemeState (input : List Char) : Option (Scheme × List Char) :=
  match input.dropWhile (· != ':') with
  | [] => none
  | _ :: rest =>
    let buffer := (input.takeWhile (· != ':')).map Char.toLower
    ([.ftp, .http, .https, .ws, .wss].find? fun scheme => scheme.text == buffer).map (·, rest)

/-- The host ends at a `:` that is outside brackets. -/
def splitHost (insideBrackets : Bool) : List Char → List Char × List Char
  | [] => ([], [])
  | c :: cs =>
    if c == ':' && !insideBrackets then ([], c :: cs)
    else
      let (host, port) := splitHost (c == '[' || (insideBrackets && c != ']')) cs
      (c :: host, port)

/-- `none` is a failure, `some none` the null port. -/
def portState (scheme : Scheme) (buffer : List Char) : Option (Option Nat) :=
  if buffer.all Char.isDigit then
    let port := Nat.ofDigitChars 10 buffer 0
    if buffer = [] then some none
    else if 65535 < port then none
    else some (if port = scheme.defaultPort then none else some port)
  else none

/-- The authority, host and port states: credentials stand before the last `@`. -/
def authorityState (hostParser : List Char → Option H) (scheme : Scheme) (authority : List Char) :
    Option (Authority H) :=
  let credentials := (authority.rdropWhile (· != '@')).dropLast
  let (host, port) := splitHost false (authority.rtakeWhile (· != '@'))
  if host = [] then none
  else
    (hostParser host).bind fun host =>
      (portState scheme (port.drop 1)).map fun port =>
        { username := (credentials.takeWhile (· != ':')).flatMap (utf8PercentEncode inUserinfoSet)
          password :=
            ((credentials.dropWhile (· != ':')).drop 1).flatMap (utf8PercentEncode inUserinfoSet)
          host, port }

def isSingleDot (segment : List Char) : Bool :=
  [".".toList, "%2e".toList].contains (segment.map Char.toLower)

def isDoubleDot (segment : List Char) : Bool :=
  ["..".toList, ".%2e".toList, "%2e.".toList, "%2e%2e".toList].contains (segment.map Char.toLower)

/-- A segment has been read; `slash`: it is not the last. -/
def endSegment (slash : Bool) (path : List (List Char)) (segment : List Char) :
    List (List Char) :=
  if isDoubleDot segment then if slash then path.dropLast else path.dropLast ++ [[]]
  else if isSingleDot segment then if slash then path else path ++ [[]]
  else path ++ [segment]

/-- The path, and what is left from the `?` or the `#` on. -/
def pathState (path : List (List Char)) (buffer : List Char) :
    List Char → List (List Char) × List Char
  | [] => (endSegment false path buffer, [])
  | c :: cs =>
    if isSlash c then pathState (endSegment true path buffer) [] cs
    else if c == '?' || c == '#' then (endSegment false path buffer, c :: cs)
    else pathState path (buffer ++ utf8PercentEncode inPathSet c) cs

def pathStartState : List Char → List (List Char) × List Char
  | [] => pathState [] [] []
  | c :: cs => if isSlash c then pathState [] [] cs else pathState [] [] (c :: cs)

def queryState : List Char → Option (List Char) × List Char
  | '?' :: cs =>
    (some ((cs.takeWhile (· != '#')).flatMap (utf8PercentEncode inSpecialQuerySet)),
      cs.dropWhile (· != '#'))
  | cs => (none, cs)

def fragmentState : List Char → Option (List Char)
  | '#' :: cs => some (cs.flatMap (utf8PercentEncode inFragmentSet))
  | _ => none

/-- The states from the path start state on. -/
def Authority.locate (authority : Authority H) (scheme : Scheme) (rest : List Char) : Record H :=
  let (path, rest) := pathStartState rest
  let (query, rest) := queryState rest
  { authority with scheme, path, query, fragment := fragmentState rest }

/-- Also `none` for the schemes that are not modelled. -/
def parse (hostParser : List Char → Option H) (input : List Char) : Option (Record H) :=
  (schemeState (clean input)).bind fun (scheme, rest) =>
    let rest := rest.dropWhile isSlash
    (authorityState hostParser scheme (rest.takeWhile (!endsAuthority ·))).map
      (·.locate scheme (rest.dropWhile (!endsAuthority ·)))

/-! ## Dot segments -/

theorem eq_of_toLower {c d : Char} (hd : d.toNat < 65) (h : c.toLower = d) : c = d := by
  unfold Char.toLower at h
  split at h
  · rename_i hupper
    obtain ⟨hge, hle⟩ : 65 ≤ c.toNat ∧ c.toNat ≤ 90 :=
      ⟨UInt32.le_iff_toNat_le.1 hupper.1, UInt32.le_iff_toNat_le.1 hupper.2⟩
    have hnat : (c.toNat + 32) % 2 ^ 32 = d.toNat := by
      rw [← h]
      exact (UInt32.toNat_add c.val 32).symm
    omega
  · exact h

theorem eq_of_map_toLower {segment dots : List Char} (hdots : ∀ d ∈ dots, d.toNat < 65)
    (h : segment.map Char.toLower = dots) : segment = dots := by
  induction segment generalizing dots with
  | nil => exact h
  | cons c segment ih =>
    subst h
    rw [List.map_cons] at hdots ⊢
    have hc : c = c.toLower := eq_of_toLower (hdots _ List.mem_cons_self) rfl
    have hrest : segment = segment.map Char.toLower :=
      ih (fun d hd => hdots d (List.mem_cons_of_mem _ hd)) rfl
    rw [← hc, ← hrest]

variable {segment : List Char}

/-- Only the first spelling has no encoded dot. -/
theorem eq_of_spelling {dots : List Char} {spellings : List (List Char)}
    (hdots : ∀ d ∈ dots, d = '.') (hencoded : ∀ s ∈ spellings, '%' ∈ s) (h : '%' ∉ segment)
    (hmem : (dots :: spellings).contains (segment.map Char.toLower) = true) : segment = dots := by
  rcases List.mem_cons.1 (List.contains_iff_mem.1 hmem) with hfirst | hother
  · exact eq_of_map_toLower (fun d hd => hdots d hd ▸ (by decide)) hfirst
  · obtain ⟨c, hc, hlower⟩ := List.mem_map.1 (hencoded _ hother)
    exact absurd (eq_of_toLower (by decide) hlower ▸ hc) h

theorem isSingleDot_iff (h : '%' ∉ segment) : isSingleDot segment = true ↔ segment = ['.'] := by
  refine ⟨eq_of_spelling (by simp) (by decide) h, ?_⟩
  rintro rfl
  decide

theorem isDoubleDot_iff (h : '%' ∉ segment) :
    isDoubleDot segment = true ↔ segment = ['.', '.'] := by
  refine ⟨eq_of_spelling (by simp) (by decide) h, ?_⟩
  rintro rfl
  decide

theorem endSegment_of_ne (slash : Bool) (path : List (List Char)) (h : '%' ∉ segment)
    (hdots : segment ≠ ['.', '.']) :
    endSegment slash path segment =
      path ++ if segment = ['.'] then if slash then [] else [[]] else [segment] := by
  have hdouble : ¬ isDoubleDot segment = true := fun hd => hdots ((isDoubleDot_iff h).1 hd)
  simp only [endSegment, if_neg hdouble, isSingleDot_iff h]
  split
  · cases slash with
    | true => exact (List.append_nil path).symm
    | false => rfl
  · rfl

/-! ## Where a plain path leads -/

/-- It separates no segments but as `/`, and it is neither encoded nor a part of an encoded dot. -/
def isPlain (c : Char) : Bool := !inPathSet c && c != '\\' && c != '%'

/-- What is left of the segments of a path without `..`. -/
def dropDots : List (List Char) → List (List Char)
  | [] => []
  | [segment] => [if segment = ['.'] then [] else segment]
  | segment :: next :: rest =>
    if segment = ['.'] then dropDots (next :: rest) else segment :: dropDots (next :: rest)

theorem dropDots_cons {segments : List (List Char)} (h : segments ≠ []) :
    dropDots (segment :: segments) =
      (if segment = ['.'] then [] else [segment]) ++ dropDots segments := by
  obtain ⟨next, rest, rfl⟩ := List.exists_cons_of_ne_nil h
  rw [dropDots]
  split <;> rfl

theorem dropDots_ne_nil {segments : List (List Char)} (h : segments ≠ []) :
    dropDots segments ≠ [] := by
  induction segments with
  | nil => exact absurd rfl h
  | cons segment segments ih =>
    cases segments with
    | nil => exact List.cons_ne_nil _ _
    | cons next rest =>
      rw [dropDots_cons (List.cons_ne_nil _ _)]
      exact List.append_ne_nil_of_right_ne_nil _ (ih (List.cons_ne_nil _ _))

theorem dropDots_of_ne {segments : List (List Char)} (h : ∀ s ∈ segments, s ≠ ['.']) :
    dropDots segments = segments := by
  induction segments with
  | nil => rfl
  | cons segment segments ih =>
    have hsegment : segment ≠ ['.'] := h segment List.mem_cons_self
    cases segments with
    | nil => rw [dropDots, if_neg hsegment]
    | cons next rest =>
      rw [dropDots_cons (List.cons_ne_nil _ _), if_neg hsegment,
        ih fun s hs => h s (List.mem_cons_of_mem _ hs)]
      rfl

variable {c : Char} {buffer cs : List Char}

theorem isPlain_iff : isPlain c = true ↔ inPathSet c = false ∧ c ≠ '\\' ∧ c ≠ '%' := by
  simp [isPlain, and_assoc]

/-- A plain code point is read into the segment, or it ends the segment. -/
theorem pathState_cons (hc : isPlain c = true) (path : List (List Char)) (buffer cs : List Char) :
    pathState path buffer (c :: cs) =
      if c = '/' then pathState (endSegment true path buffer) [] cs
      else pathState path (buffer ++ [c]) cs := by
  obtain ⟨hset, hback, -⟩ := isPlain_iff.1 hc
  have hstay : (c == '?' || c == '#') = false := by
    rw [Bool.or_eq_false_iff, beq_eq_false_iff_ne, beq_eq_false_iff_ne]
    constructor
    · rintro rfl
      cases hset
    · rintro rfl
      cases hset
  by_cases hslash : c = '/'
  · subst hslash
    rw [pathState]
    rfl
  · have hseparates : isSlash c = false := by
      rw [isSlash, Bool.or_eq_false_iff, beq_eq_false_iff_ne, beq_eq_false_iff_ne]
      exact ⟨hslash, hback⟩
    rw [pathState, hseparates, hstay, if_neg hslash, utf8PercentEncode, hset]
    rfl

/-- `buffer` is the segment that is being read. -/
theorem pathState_plain (hplain : ∀ c ∈ cs, isPlain c = true) (path : List (List Char))
    (hbuffer : '%' ∉ buffer) (hdots : ¬ ['.', '.'] <:+: buffer ++ cs) :
    pathState path buffer cs =
      (path ++ dropDots ((cs.splitOn '/').modifyHead (buffer ++ ·)), []) := by
  have hends : buffer ≠ ['.', '.'] := by
    rintro rfl
    exact hdots (List.prefix_append _ _).isInfix
  induction cs generalizing path buffer with
  | nil =>
    rw [pathState, endSegment_of_ne false path hbuffer hends, List.splitOn_nil, List.modifyHead,
      List.append_nil, dropDots]
    split <;> rfl
  | cons c cs ih =>
    have hc : isPlain c = true := hplain c List.mem_cons_self
    have hcs : ∀ c ∈ cs, isPlain c = true := fun c h => hplain c (List.mem_cons_of_mem _ h)
    rw [pathState_cons hc, List.splitOn_cons_eq_if_modifyHead]
    by_cases hslash : c = '/'
    · subst hslash
      have hrest : ¬ ['.', '.'] <:+: [] ++ cs := fun h =>
        hdots (h.trans ((List.suffix_cons '/' cs).trans (List.suffix_append buffer _)).isInfix)
      have hid : (cs.splitOn '/').modifyHead (fun s => [] ++ s) = cs.splitOn '/' :=
        congrFun List.modifyHead_id _
      rw [if_pos rfl, ih hcs _ List.not_mem_nil hrest (List.cons_ne_nil _ _).symm, hid,
        if_pos (beq_self_eq_true _), List.modifyHead, List.append_nil,
        dropDots_cons (List.splitOn_ne_nil _ _), endSegment_of_ne true path hbuffer hends,
        List.append_assoc]
      rfl
    · have hread : buffer ++ c :: cs = (buffer ++ [c]) ++ cs := List.append_cons buffer c cs
      have hbuffer' : '%' ∉ buffer ++ [c] := by
        rw [List.mem_append, List.mem_singleton, not_or]
        exact ⟨hbuffer, Ne.symm (isPlain_iff.1 hc).2.2⟩
      rw [hread] at hdots
      have hends' : buffer ++ [c] ≠ ['.', '.'] := fun h =>
        hdots (h ▸ (List.prefix_append _ cs).isInfix)
      have hgrow : ((buffer ++ ·) ∘ List.cons c) = (buffer ++ [c] ++ ·) :=
        funext fun s => List.append_cons buffer c s
      rw [if_neg hslash, ih hcs path hbuffer' hdots hends', if_neg (by simpa using hslash),
        List.modifyHead_modifyHead, hgrow]

theorem pathState_nil_plain (hplain : ∀ c ∈ cs, isPlain c = true) (path : List (List Char))
    (hdots : ¬ ['.', '.'] <:+: cs) :
    pathState path [] cs = (path ++ dropDots (cs.splitOn '/'), []) := by
  have hid : (cs.splitOn '/').modifyHead (fun s => [] ++ s) = cs.splitOn '/' :=
    congrFun List.modifyHead_id _
  rw [pathState_plain hplain path List.not_mem_nil hdots, hid]

theorem pathText_splitOn (cs : List Char) : pathText (cs.splitOn '/') = '/' :: cs := by
  induction cs with
  | nil => rfl
  | cons c cs ih =>
    rw [List.splitOn_cons_eq_if_modifyHead]
    split
    · rename_i hslash
      obtain rfl := eq_of_beq hslash
      exact congrArg (List.cons '/') ih
    · obtain ⟨first, rest, hsplit⟩ := List.exists_cons_of_ne_nil (List.splitOn_ne_nil '/' cs)
      rw [hsplit] at ih ⊢
      exact congrArg (fun l => '/' :: c :: l) (List.cons.inj ih).2

/-- Where there is no dot, no segment is dropped. -/
theorem dropDots_splitOn (h : '.' ∉ cs) : dropDots (cs.splitOn '/') = cs.splitOn '/' := by
  refine dropDots_of_ne fun segment hsegment hdot => h ?_
  have hmem : '.' ∈ pathText (cs.splitOn '/') := by
    refine List.mem_flatMap.2 ⟨segment, hsegment, List.mem_cons_of_mem _ ?_⟩
    rw [hdot]
    exact List.mem_singleton_self _
  rw [pathText_splitOn, List.mem_cons] at hmem
  exact hmem.resolve_left (by decide)

/-! ## Absolute URLs -/

variable {hostParser : List Char → Option H} {authority rest : List Char}

theorem clean_eq_filter {input : List Char} (hfirst : ∀ c ∈ input.head?, isC0ControlOrSpace c = false)
    (hlast : ∀ c ∈ input.getLast?, isC0ControlOrSpace c = false) :
    clean input = input.filter (!isTabOrNewline ·) := by
  have hleft : input.dropWhile isC0ControlOrSpace = input := by
    cases input with
    | nil => rfl
    | cons c cs => rw [List.dropWhile_cons_of_neg (Bool.eq_false_iff.1 (hfirst c rfl))]
  have hright : input.rdropWhile isC0ControlOrSpace = input := by
    refine List.rdropWhile_eq_self_iff.2 fun hne => Bool.eq_false_iff.1 (hlast _ ?_)
    exact List.getLast?_eq_some_getLast hne
  rw [clean, hleft, hright]

theorem isC0ControlOrSpace_of_isTabOrNewline (h : isTabOrNewline c = true) :
    isC0ControlOrSpace c = true := by
  have hmem : c ∈ ['\t', '\n', '\r'] := List.contains_iff_mem.1 h
  simp only [List.mem_cons, List.not_mem_nil, or_false] at hmem
  rcases hmem with rfl | rfl | rfl <;> rfl

theorem filter_eq_self (h : ∀ c ∈ cs, isC0ControlOrSpace c = false) :
    cs.filter (!isTabOrNewline ·) = cs := by
  refine List.filter_eq_self.2 fun c hc => ?_
  cases htab : isTabOrNewline c with
  | false => rfl
  | true => cases (isC0ControlOrSpace_of_isTabOrNewline htab).symm.trans (h c hc)

theorem schemeState_text (scheme : Scheme) (rest : List Char) :
    schemeState (scheme.text ++ ':' :: rest) = some (scheme, rest) := by
  cases scheme <;> rfl

theorem Scheme.text_ne_nil (scheme : Scheme) : scheme.text ≠ [] := by
  cases scheme <;> exact List.cons_ne_nil _ _

theorem Scheme.visible (scheme : Scheme) :
    ∀ c ∈ scheme.text ++ "://".toList, isC0ControlOrSpace c = false := by
  have hall : (scheme.text ++ "://".toList).any isC0ControlOrSpace = false := by
    cases scheme <;> rfl
  exact fun c hc => Bool.eq_false_iff.2 (List.any_eq_false.1 hall c hc)

theorem clean_absolute (scheme : Scheme) (hrest : rest ≠ [])
    (hvisible : ∀ c ∈ rest, isC0ControlOrSpace c = false) :
    clean (scheme.text ++ "://".toList ++ authority ++ rest) =
      scheme.text ++ "://".toList ++ authority.filter (!isTabOrNewline ·) ++ rest := by
  rw [clean_eq_filter, List.filter_append, List.filter_append, filter_eq_self scheme.visible,
    filter_eq_self hvisible]
  · intro c hc
    rw [List.append_assoc, List.head?_append_of_ne_nil _ (by simp [scheme.text_ne_nil])] at hc
    exact scheme.visible c (List.mem_of_mem_head? hc)
  · intro c hc
    rw [List.getLast?_append_of_ne_nil _ hrest] at hc
    exact hvisible c (List.mem_of_getLast? hc)

/-- The authority ends where the path starts. -/
theorem parse_absolute (scheme : Scheme) (hends : ∀ c ∈ authority, endsAuthority c = false)
    (hnonempty : authority.filter (!isTabOrNewline ·) ≠ [])
    (hrest : ∃ cs, rest = '/' :: cs) (hvisible : ∀ c ∈ rest, isC0ControlOrSpace c = false) :
    parse hostParser (scheme.text ++ "://".toList ++ authority ++ rest) =
      (authorityState hostParser scheme (authority.filter (!isTabOrNewline ·))).map
        (·.locate scheme rest) := by
  obtain ⟨cs, rfl⟩ := hrest
  have hends' : ∀ c ∈ authority.filter (!isTabOrNewline ·), (!endsAuthority c) = true :=
    fun c hc => by rw [hends c (List.mem_of_mem_filter hc)]; rfl
  rw [parse, clean_absolute scheme (List.cons_ne_nil _ _) hvisible]
  generalize authority.filter (!isTabOrNewline ·) = authority at *
  have hstate : schemeState (scheme.text ++ "://".toList ++ authority ++ '/' :: cs) =
      some (scheme, '/' :: '/' :: (authority ++ '/' :: cs)) := by
    rw [List.append_assoc, List.append_assoc]
    exact schemeState_text scheme _
  have hskip : ('/' :: '/' :: (authority ++ '/' :: cs)).dropWhile isSlash =
      authority ++ '/' :: cs := by
    obtain ⟨c, host, rfl⟩ := List.exists_cons_of_ne_nil hnonempty
    have hslash : ¬ isSlash c = true := by
      have hc := hends' c List.mem_cons_self
      simp only [endsAuthority, Bool.not_eq_true', Bool.or_eq_false_iff] at hc
      exact Bool.eq_false_iff.1 hc.1.1
    rw [List.dropWhile_cons_of_pos rfl, List.dropWhile_cons_of_pos rfl, List.cons_append,
      List.dropWhile_cons_of_neg hslash]
  have htake : (authority ++ '/' :: cs).takeWhile (!endsAuthority ·) = authority := by
    rw [List.takeWhile_append_of_pos hends', List.takeWhile_cons_of_neg (by decide),
      List.append_nil]
  have hdrop : (authority ++ '/' :: cs).dropWhile (!endsAuthority ·) = '/' :: cs := by
    rw [List.dropWhile_append_of_pos hends', List.dropWhile_cons_of_neg (by decide)]
  simp only [hstate, Option.bind_some, hskip, htake, hdrop]

/-- A plain path without `..` is all that follows the authority. -/
theorem locate_plain (authority : Authority H) (scheme : Scheme)
    (hplain : ∀ c ∈ cs, isPlain c = true) (hdots : ¬ ['.', '.'] <:+: cs) :
    authority.locate scheme ('/' :: cs) =
      { authority with
        scheme, path := dropDots (cs.splitOn '/'), query := none, fragment := none } := by
  have hpath : pathStartState ('/' :: cs) = (dropDots (cs.splitOn '/'), []) :=
    pathState_nil_plain hplain [] hdots
  rw [Authority.locate, hpath]
  rfl

end Url
