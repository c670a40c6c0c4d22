/- TheNews/Extensions/URLGrammar
   digest: The URLs the add alert accepts against the grammar of URLs: they differ
   on the root path and on separators that the pattern lets pass. -/

import TheNews.Extensions.UIAlertController

set_option autoImplicit false
set_option relaxedAutoImplicit false

namespace TheNews.Extensions.URLGrammar

open TheNews.Text Regex Separated

/-- scheme :// rest -/
def Schemed (l rest : List Char) : Prop :=
  l = "http://".toList ++ rest ∨ l = "https://".toList ++ rest

/-- Labels joined by '.'. -/
def IsHost (l : List Char) : Prop :=
  ∃ parts, parts ≠ [] ∧ AreLabels labelCharacter parts ∧ l = ['.'].intercalate parts

def IsPort (l : List Char) : Prop :=
  ∃ digits, digits ≠ [] ∧ (∀ c ∈ digits, digit c = true) ∧ l = ':' :: digits

def IsPath (l : List Char) : Prop :=
  ∃ rest, (∀ c ∈ rest, space c = false) ∧ l = '/' :: rest

/-- scheme :// host [: port] [path] -/
def Grammar (l : List Char) : Prop :=
  ∃ host port path, IsHost host ∧ (port = [] ∨ IsPort port) ∧ (path = [] ∨ IsPath path) ∧
    Schemed l (host ++ port ++ path)

/-- The path is a single '/'. -/
def RootPath (l : List Char) : Prop :=
  ∃ host port, IsHost host ∧ (port = [] ∨ IsPort port) ∧ Schemed l (host ++ port ++ ['/'])

/-- Label characters with single characters of any kind between them, then perhaps
a path that is longer than '/'. -/
def Loose (rest : List Char) : Prop :=
  ∃ front path, separated labelCharacter anyCharacter false front = true ∧
    (path = [] ∨ IsPath path ∧ path ≠ ['/']) ∧ rest = front ++ path

/-- What stands behind the first ':' that no '/' precedes, up to the next '/'. -/
def portText (rest : List Char) : List Char :=
  ((rest.takeWhile (· != '/')).dropWhile (· != ':')).drop 1

/-- A URL of the loose form in which a white space, or a ':' without a port behind
it, separates labels. -/
def StraySeparator (l : List Char) : Prop :=
  ∃ rest, Schemed l rest ∧ Loose rest ∧
    ((∃ c ∈ rest, space c = true) ∨ ∃ c ∈ portText rest, digit c = false)

variable {count : String → Nat} {c : Char} {l rest rest' front path port : List Char}

/-! Characters -/

theorem noneOf_iff {excluded : List Char} :
    noneOf excluded c = true ↔ c ∉ excluded ∧ space c = false := by
  simp [noneOf]

private theorem labelCharacter_iff :
    labelCharacter c = true ↔ c ≠ '/' ∧ c ≠ ':' ∧ c ≠ '.' ∧ space c = false := by
  simp [labelCharacter, noneOf_iff, and_assoc]

private theorem label_of_digit (isDigit : digit c = true) : labelCharacter c = true := by
  rw [digit, Bool.and_eq_true, decide_eq_true_iff, decide_eq_true_iff] at isDigit
  have lower : 48 ≤ c.toNat := isDigit.1
  have upper : c.toNat ≤ 57 := isDigit.2
  have apart (d : Char) (outside : d.toNat < 48 ∨ 57 < d.toNat) : c ≠ d := by
    rintro rfl
    omega
  refine labelCharacter_iff.mpr
    ⟨apart '/' (by decide), apart ':' (by decide), apart '.' (by decide), ?_⟩
  simp only [space, Service.NewsParse.whitespacesAndNewlines, Bool.or_eq_false_iff,
    Bool.and_eq_false_iff, decide_eq_false_iff_not, beq_eq_false_iff_ne]
  omega

private theorem schemed_subset (schemed : Schemed l rest) : rest ⊆ l := by
  rcases schemed with rfl | rfl <;> exact List.subset_append_right _ _

private theorem schemed_unique (schemed : Schemed l rest) (schemed' : Schemed l rest') :
    rest = rest' := by
  rcases schemed with rfl | rfl <;> rcases schemed' with same | same <;> simp_all

/-! The loose form -/

private theorem separated_digits {digits : List Char} (nonempty : digits ≠ [])
    (all : ∀ c ∈ digits, digit c = true) :
    separated labelCharacter anyCharacter false digits = true := by
  have whole : separated labelCharacter anyCharacter false (digits ++ []) =
      separated labelCharacter anyCharacter true [] :=
    separated_label nonempty fun c member => label_of_digit (all c member)
  rwa [List.append_nil] at whole

theorem separated_port
    (ends : separated labelCharacter anyCharacter false front = true)
    (isPort : port = [] ∨ IsPort port) :
    separated labelCharacter anyCharacter false (front ++ port) = true := by
  rcases isPort with rfl | ⟨digits, nonempty, all, rfl⟩
  · rwa [List.append_nil]
  · exact (separated_split (by decide)).mpr
      ⟨ends, by decide, separated_digits nonempty all⟩

private theorem separated_host {host : List Char} (isHost : IsHost host) :
    separated labelCharacter anyCharacter false host = true := by
  obtain ⟨parts, some, all, rfl⟩ := isHost
  exact separated_intercalate (by decide) (by decide) some all

/-! The pattern -/

theorem mem_urlPattern :
    l ∈ urlPattern.language ↔ ∃ rest, Schemed l rest ∧ rest ∈ behindScheme.language := by
  simp only [urlPattern, mem_seq, mem_word, mem_opt, mem_one, beq_iff_eq, Schemed]
  constructor
  · rintro ⟨_, rfl, _, ⟨_, ⟨_, rfl, rfl⟩ | rfl, _, ⟨_, rfl, rest, member, rfl⟩, rfl⟩, rfl⟩
    · exact ⟨rest, .inr rfl, member⟩
    · exact ⟨rest, .inl rfl, member⟩
  · rintro ⟨rest, rfl | rfl, member⟩
    · exact ⟨_, rfl, _, ⟨[], .inr rfl, _, ⟨_, rfl, rest, member, rfl⟩, rfl⟩, rfl⟩
    · exact ⟨_, rfl, _, ⟨['s'], .inl ⟨'s', rfl, rfl⟩, _, ⟨_, rfl, rest, member, rfl⟩, rfl⟩, rfl⟩

theorem separated_of_address (member : l ∈ address.language) :
    separated labelCharacter anyCharacter false l = true := by
  simp only [address, mem_seq, mem_one] at member
  obtain ⟨_, ⟨d, first, rfl⟩, _, ⟨_, ⟨c, any, rfl⟩, _, ⟨_, ⟨d₁, second, rfl⟩, _,
    ⟨_, ⟨d₂, third, rfl⟩, _, ⟨d₃, fourth, rfl⟩, rfl⟩, rfl⟩, rfl⟩, rfl⟩ := member
  simp [separated, label_of_digit first, label_of_digit second, label_of_digit third,
    label_of_digit fourth, any]

theorem mem_portPattern : l ∈ portPattern.language ↔ IsPort l := by
  simp only [portPattern, mem_seq, mem_one, mem_plus_one, beq_iff_eq, IsPort]
  constructor
  · rintro ⟨_, ⟨_, rfl, rfl⟩, digits, ⟨nonempty, all⟩, rfl⟩
    exact ⟨digits, nonempty, all, rfl⟩
  · rintro ⟨digits, nonempty, all, rfl⟩
    exact ⟨[':'], ⟨':', rfl, rfl⟩, digits, ⟨nonempty, all⟩, rfl⟩

private theorem mem_behindPort (plain : '?' ∉ l ∧ '#' ∉ l) :
    l ∈ behindPort.language ↔ IsPath l ∧ l ≠ ['/'] := by
  simp only [behindPort, mem_seq, mem_opt, mem_one, mem_plus_one, beq_iff_eq, noneOf_iff]
  constructor
  · rintro ⟨_, ⟨_, ⟨_, rfl, rfl⟩, p, ⟨nonempty, inside⟩, rfl⟩, _, ⟨q, query, f, fragment, rfl⟩, rfl⟩
    obtain rfl : f = [] := by
      rcases fragment with ⟨_, ⟨_, rfl, rfl⟩, _, -, rfl⟩ | none
      · exact absurd (by simp) plain.2
      · exact none
    refine ⟨⟨p ++ q, ?_, by simp⟩, by simp [nonempty]⟩
    intro c member
    rcases List.mem_append.mp member with inPath | inQuery
    · exact (inside c inPath).2
    · rcases query with ⟨-, all⟩ | rfl
      · exact (all c inQuery).2
      · cases inQuery
  · rintro ⟨⟨p, solid, rfl⟩, longer⟩
    have nonempty : p ≠ [] := by
      rintro rfl
      exact longer rfl
    have inside (c : Char) (member : c ∈ p) : c ∉ ['?', '#'] ∧ space c = false := by
      refine ⟨?_, solid c member⟩
      simp only [List.mem_cons, List.not_mem_nil, or_false, not_or]
      exact ⟨fun same => plain.1 (same ▸ List.mem_cons_of_mem _ member),
        fun same => plain.2 (same ▸ List.mem_cons_of_mem _ member)⟩
    exact ⟨'/' :: p, ⟨['/'], ⟨'/', rfl, rfl⟩, p, ⟨nonempty, inside⟩, rfl⟩, [],
      ⟨[], .inr rfl, [], .inr rfl, rfl⟩, by simp⟩

private theorem mem_behindScheme (plain : '?' ∉ rest ∧ '#' ∉ rest) :
    rest ∈ behindScheme.language ↔ Loose rest := by
  simp only [behindScheme, mem_seq, mem_alt, mem_opt, mem_labels, mem_portPattern]
  constructor
  · rintro ⟨host, isHost, _, ⟨port, isPort, path, isPath, rfl⟩, rfl⟩
    have ends := isHost.elim id separated_of_address
    refine ⟨host ++ port, path, separated_port ends isPort.symm, ?_, by simp⟩
    exact (isPath.imp_left (mem_behindPort (by simp_all)).mp).symm
  · rintro ⟨front, path, ends, isPath, rfl⟩
    refine ⟨front, .inl ends, path, ⟨[], .inr rfl, path, ?_, rfl⟩, rfl⟩
    exact (isPath.imp_right (mem_behindPort (by simp_all)).mpr).symm

private theorem isValidURL_iff (graphemes : Graphemes count) {s : String}
    (plain : '?' ∉ s.toList ∧ '#' ∉ s.toList) :
    isValidURL count s = true ↔ ∃ rest, Schemed s.toList rest ∧ Loose rest := by
  have same : urlPattern.accepts s.toList = true ↔
      ∃ rest, Schemed s.toList rest ∧ Loose rest := by
    rw [accepts_iff, mem_urlPattern]
    refine exists_congr fun rest => and_congr_right fun schemed => mem_behindScheme ?_
    exact ⟨fun member => plain.1 (schemed_subset schemed member),
      fun member => plain.2 (schemed_subset schemed member)⟩
  rw [isValidURL, Bool.and_eq_true, same, decide_eq_true_iff, and_iff_right_iff_imp]
  rintro ⟨rest, schemed, -⟩
  rw [Nat.pos_iff_ne_zero]
  rintro zero
  rw [(graphemes.empty s).mp zero] at schemed
  rcases schemed with none | none <;> cases none

/-! The grammar -/

private theorem host_characters {host : List Char} (isHost : IsHost host) :
    ∀ c ∈ host, c ≠ '/' ∧ c ≠ ':' ∧ space c = false := by
  obtain ⟨parts, -, all, rfl⟩ := isHost
  intro c member
  rcases label_or_separator all c member with label | rfl
  · obtain ⟨slash, colon, -, solid⟩ := labelCharacter_iff.mp label
    exact ⟨slash, colon, solid⟩
  · decide

private theorem port_characters (isPort : port = [] ∨ IsPort port) :
    ∀ c ∈ port, c ≠ '/' ∧ space c = false := by
  rcases isPort with rfl | ⟨digits, -, all, rfl⟩
  · simp
  · refine List.forall_mem_cons.mpr ⟨by decide, fun c member => ?_⟩
    obtain ⟨slash, -, -, solid⟩ := labelCharacter_iff.mp (label_of_digit (all c member))
    exact ⟨slash, solid⟩

private theorem authority_characters {host : List Char} (isHost : IsHost host)
    (isPort : port = [] ∨ IsPort port) : ∀ c ∈ host ++ port, c ≠ '/' ∧ space c = false := by
  intro c member
  rcases List.mem_append.mp member with inHost | inPort
  · obtain ⟨slash, -, solid⟩ := host_characters isHost c inHost
    exact ⟨slash, solid⟩
  · exact port_characters isPort c inPort

private theorem portText_append (apart : '/' ∉ front) (isPath : path = [] ∨ IsPath path) :
    portText (front ++ path) = (front.dropWhile (· != ':')).drop 1 := by
  have all : ∀ c ∈ front, (c != '/') = true := by
    intro c member
    exact bne_iff_ne.mpr (ne_of_mem_of_not_mem member apart)
  have stops : path.takeWhile (· != '/') = [] := by
    rcases isPath with rfl | ⟨rest, -, rfl⟩ <;> rfl
  rw [portText, List.takeWhile_append_of_pos all, stops, List.append_nil]

private theorem loose_split (loose : Loose rest) (solid : ∀ c ∈ rest, space c = false) :
    ∃ front path, '/' ∉ front ∧ separated labelCharacter anyCharacter false front = true ∧
      (path = [] ∨ IsPath path) ∧ rest = front ++ path := by
  obtain ⟨front, path, ends, isPath, rfl⟩ := loose
  by_cases inside : '/' ∈ front
  · obtain ⟨before, after, rfl, apart⟩ := List.eq_append_cons_of_mem inside
    refine ⟨before, '/' :: (after ++ path), apart, ((separated_split (by decide)).mp ends).1,
      .inr ⟨after ++ path, fun c member => solid c ?_, rfl⟩, by simp⟩
    rw [List.append_assoc, List.cons_append]
    exact List.mem_append_right _ (List.mem_cons_of_mem _ member)
  · exact ⟨front, path, inside, ends, isPath.imp_right And.left, rfl⟩

private theorem host_of_separated (ends : separated labelCharacter anyCharacter false front = true)
    (apart : ∀ c ∈ front, c ≠ '/' ∧ c ≠ ':' ∧ space c = false) : IsHost front := by
  refine exists_intercalate ends fun c member => ?_
  obtain ⟨slash, colon, solid⟩ := apart c member
  by_cases dot : c = '.'
  · exact .inr dot
  · exact .inl (labelCharacter_iff.mpr ⟨slash, colon, dot, solid⟩)

private theorem host_port_of_separated
    (ends : separated labelCharacter anyCharacter false front = true)
    (apart : ∀ c ∈ front, c ≠ '/' ∧ space c = false)
    (digits : ∀ c ∈ (front.dropWhile (· != ':')).drop 1, digit c = true) :
    ∃ host port, IsHost host ∧ (port = [] ∨ IsPort port) ∧ front = host ++ port := by
  by_cases inside : ':' ∈ front
  · obtain ⟨host, after, rfl, before⟩ := List.eq_append_cons_of_mem inside
    obtain ⟨ends, -, behind⟩ := (separated_split (by decide)).mp ends
    have text : ((host ++ ':' :: after).dropWhile (· != ':')).drop 1 = after := by
      rw [List.dropWhile_append_of_pos fun c member =>
        bne_iff_ne.mpr (ne_of_mem_of_not_mem member before)]
      rfl
    have nonempty : after ≠ [] := by
      rintro rfl
      cases behind
    refine ⟨host, ':' :: after, host_of_separated ends fun c member => ?_,
      .inr ⟨after, nonempty, text ▸ digits, rfl⟩, rfl⟩
    obtain ⟨slash, solid⟩ := apart c (List.mem_append_left _ member)
    exact ⟨slash, ne_of_mem_of_not_mem member before, solid⟩
  · refine ⟨front, [], host_of_separated ends fun c member => ?_, .inl rfl, by simp⟩
    exact ⟨(apart c member).1, ne_of_mem_of_not_mem member inside, (apart c member).2⟩

/-! The comparison -/

private theorem loose_of_grammar {host : List Char} (isHost : IsHost host)
    (isPort : port = [] ∨ IsPort port) (isPath : path = [] ∨ IsPath path) (longer : path ≠ ['/']) :
    Loose (host ++ port ++ path) :=
  ⟨host ++ port, path, separated_port (separated_host isHost) isPort,
    isPath.imp_right fun isPath => ⟨isPath, longer⟩, rfl⟩

private theorem not_loose_root {host : List Char} (isHost : IsHost host)
    (isPort : port = [] ∨ IsPort port) : ¬ Loose (host ++ port ++ ['/']) := by
  rintro ⟨front, path, ends, isPath, split⟩
  have apart : '/' ∉ host ++ port := fun member =>
    (authority_characters isHost isPort '/' member).1 rfl
  rcases isPath with rfl | ⟨⟨rest, -, rfl⟩, longer⟩
  · rw [List.append_nil] at split
    rw [← split, separated_split (by decide)] at ends
    cases ends.2.2
  · rcases List.eq_nil_or_concat rest with rfl | ⟨before, last, rfl⟩
    · exact longer rfl
    · have whole : host ++ port ++ ['/'] = front ++ '/' :: before ++ [last] := by
        simpa using split
      have same := (List.append_inj' whole rfl).1
      exact apart (by simp [same])

private theorem grammar_of_loose (schemed : Schemed l rest) (loose : Loose rest)
    (solid : ∀ c ∈ rest, space c = false) (digits : ∀ c ∈ portText rest, digit c = true) :
    Grammar l := by
  obtain ⟨front, path, apart, ends, isPath, rfl⟩ := loose_split loose solid
  rw [portText_append apart isPath] at digits
  have characters : ∀ c ∈ front, c ≠ '/' ∧ space c = false := fun c member =>
    ⟨ne_of_mem_of_not_mem member apart, solid c (List.mem_append_left _ member)⟩
  obtain ⟨host, port, isHost, isPort, rfl⟩ := host_port_of_separated ends characters digits
  exact ⟨host, port, path, isHost, isPort, isPath, schemed⟩

private theorem not_stray_of_grammar (grammar : Grammar l) : ¬ StraySeparator l := by
  obtain ⟨host, port, path, isHost, isPort, isPath, schemed⟩ := grammar
  rintro ⟨rest, schemed', -, stray⟩
  obtain rfl := schemed_unique schemed schemed'
  have characters := authority_characters isHost isPort
  rcases stray with ⟨c, member, blank⟩ | ⟨c, member, other⟩
  · rcases List.mem_append.mp member with inFront | inPath
    · simp [(characters c inFront).2] at blank
    · rcases isPath with rfl | ⟨rest, solid, rfl⟩
      · cases inPath
      · rcases List.mem_cons.mp inPath with rfl | behind
        · exact absurd blank (by decide)
        · simp [solid c behind] at blank
  · have front : ∀ c ∈ host, (c != ':') = true := fun c member =>
      bne_iff_ne.mpr (host_characters isHost c member).2.1
    rw [portText_append (fun slash => (characters '/' slash).1 rfl) isPath,
      List.dropWhile_append_of_pos front] at member
    rcases isPort with rfl | ⟨digits, -, all, rfl⟩
    · cases member
    · have isDigit := all c member
      simp [isDigit] at other

/-- Of the strings without '?' and '#', the check accepts exactly the grammar's
unless the path is the root or a stray character separates two labels. -/
theorem isValidURL_iff_grammar_iff (graphemes : Graphemes count) {s : String}
    (plain : '?' ∉ s.toList ∧ '#' ∉ s.toList) :
    (isValidURL count s = true ↔ Grammar s.toList) ↔
      ¬ RootPath s.toList ∧ ¬ StraySeparator s.toList := by
  rw [isValidURL_iff graphemes plain]
  constructor
  · intro agree
    constructor
    · rintro ⟨host, port, isHost, isPort, schemed⟩
      have grammar : Grammar s.toList :=
        ⟨host, port, ['/'], isHost, isPort, .inr ⟨[], by simp, rfl⟩, schemed⟩
      obtain ⟨rest, schemed', loose⟩ := agree.mpr grammar
      obtain rfl := schemed_unique schemed schemed'
      exact not_loose_root isHost isPort loose
    · intro stray
      have ⟨rest, schemed, loose, _⟩ := stray
      exact not_stray_of_grammar (agree.mp ⟨rest, schemed, loose⟩) stray
  · rintro ⟨notRoot, notStray⟩
    constructor
    · rintro ⟨rest, schemed, loose⟩
      have neither : ¬ ((∃ c ∈ rest, space c = true) ∨ ∃ c ∈ portText rest, digit c = false) :=
        fun stray => notStray ⟨rest, schemed, loose, stray⟩
      obtain ⟨solid, digits⟩ := not_or.mp neither
      exact grammar_of_loose schemed loose (by simpa using solid) (by simpa using digits)
    · rintro ⟨host, port, path, isHost, isPort, isPath, schemed⟩
      refine ⟨_, schemed, loose_of_grammar isHost isPort isPath ?_⟩
      rintro rfl
      exact notRoot ⟨host, port, isHost, isPort, schemed⟩

theorem isValidURL_iff_grammar_iff_rootPath :
    (isValidURL String.length "http://a.b:80/" = true ↔ Grammar "http://a.b:80/".toList) ↔
      ¬ RootPath "http://a.b:80/".toList ∧ ¬ StraySeparator "http://a.b:80/".toList :=
  isValidURL_iff_grammar_iff graphemes_length (by decide)

theorem not_isValidURL_iff_grammar :
    ¬ ∀ s : String, '?' ∉ s.toList ∧ '#' ∉ s.toList →
      (isValidURL String.length s = true ↔ Grammar s.toList) := by
  intro exactly
  have accepted : isValidURL String.length "http://a b" = true := by decide
  have stray : StraySeparator "http://a b".toList :=
    ⟨"a b".toList, .inl rfl, ⟨"a b".toList, [], rfl, .inl rfl, rfl⟩,
      .inl ⟨' ', by decide, by decide⟩⟩
  exact not_stray_of_grammar ((exactly "http://a b" (by decide)).mp accepted) stray

end TheNews.Extensions.URLGrammar
