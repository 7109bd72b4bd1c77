import Vernacular.Proofs.CommandLine.Delivery

/-!
# Translating a file into its own locale

A file without tokens is copied word by word, separator by separator.  Its octets are copied, too,
unless it ends lines with carriage returns: these are lost when it is read.
-/

namespace Vernacular.CommandLine

variable {tree : File.Tree} {text : String} {registry : Registry} {L : String} {v : Vocabulary}

/-! ## One locale -/

/-- No word of a text is a token. -/
def TokenFree (text : String) : Prop :=
  ∀ word ∈ Separators.standard.words text, ∀ token ∈ Token.names,
    word ≠ Affixes.standard.decorate token

instance (text : String) : Decidable (TokenFree text) :=
  inferInstanceAs (Decidable (∀ word ∈ Separators.standard.words text, ∀ token ∈ Token.names,
    word ≠ Affixes.standard.decorate token))

/-- What translating within one locale makes of a text. -/
def retold (v : Vocabulary) (text : String) : String :=
  Separators.standard.mapWords (Translator.localWord v)
    (Separators.standard.mapWords (Translator.abstractWord v) text)

/-- A built-in locale under the standard affixes, with none of its spellings holding a carriage
return. -/
structure Own (v : Vocabulary) : Prop where
  consistent : v.Consistent
  covering : v.Covering
  tokens : v.forward.keys = Token.names.map Affixes.standard.decorate
  no_return : ∀ spelling ∈ v.forward.values, '\r' ∉ spelling.toList

theorem exists_own (hL : L ∈ Builtin.locales.map Prod.fst)
    (haccepted : (Registry.withBuiltins .standard []).result = .ok registry) :
    ∃ v, registry.vocabulary? L = some v ∧ Own v := by
  obtain ⟨overriding, hregional, hvocabulary⟩ := Registry.exists_regional_vocabulary hL
  have hfaithful := Registry.faithful_entries .standard hregional
  have hown := hvocabulary haccepted
  obtain ⟨hconsistent, hcovering⟩ := Translator.consistent_of_vocabulary? haccepted hown
  refine ⟨_, hown, hconsistent, hcovering, hfaithful.tokens, ?_⟩
  rw [hfaithful.spelled]
  exact fun spelling hspelling => (hregional.plainOctets spelling hspelling).notMem (by decide)

theorem Own.mem_keys_iff (h : Own v) {word : String} :
    word ∈ v.forward.keys ↔ ∃ token ∈ Token.names, Affixes.standard.decorate token = word := by
  rw [h.tokens, List.mem_map]

theorem Own.retold_eq (h : Own v) (hfree : TokenFree text) : retold v text = text := by
  have htokens : ∀ key ∈ v.forward.keys, Separators.standard.IsWord key := by
    intro key hkey
    obtain ⟨token, htoken, rfl⟩ := h.mem_keys_iff.mp hkey
    exact Token.isWord_decorate htoken
  rw [retold, Separators.mapWords_mapWords fun word hword =>
    Translator.isWord_abstractWord h.consistent htokens (Separators.isWord_of_mem_words hword),
    Separators.mapWords_eq_self_iff]
  intro word hword
  rw [Translator.localWord_abstractWord_eq_iff h.consistent h.covering]
  intro hkey
  obtain ⟨token, htoken, rfl⟩ := h.mem_keys_iff.mp hkey
  exact absurd rfl (hfree _ hword token htoken)

/-- What was read without carriage returns is written without. -/
theorem Own.notMem_retold (h : Own v) (htext : '\r' ∉ text.toList) :
    '\r' ∉ (retold v text).toList := by
  have hkeys : ∀ key ∈ v.forward.keys, '\r' ∉ key.toList := by
    rw [h.tokens]
    exact return_notMem_keys (by decide) (by decide)
  exact notMem_mapWords_localWord h.no_return
    (notMem_mapWords_abstractWord h.consistent hkeys htext)

/-- Carriage returns are all that keeps a file from being copied octet by octet. -/
theorem Own.encode_retold_eq_iff (h : Own v) {octets : List UInt8} {raw : List Char}
    (hdecoded : Utf8.decode octets = .ok raw) (hfree : TokenFree (String.ofList raw)) :
    Utf8.encode (retold v (String.ofList (Text.unifyNewlines raw))) = octets ↔ '\r' ∉ raw := by
  rw [Utf8.decode_eq_ok_iff.mp hdecoded, Utf8.encode_injective.eq_iff]
  constructor
  · intro hsame
    have hread : '\r' ∉ (String.ofList (Text.unifyNewlines raw)).toList := by
      simpa using Text.notMem_unifyNewlines raw
    have hwritten := h.notMem_retold hread
    rwa [hsame, String.toList_ofList] at hwritten
  · intro hnone
    rw [Text.unifyNewlines_eq_self_iff.mpr hnone]
    exact h.retold_eq hfree

/-! ## Whole runs -/

section
variable {arguments : List String} {verbose : Bool} {source target : String}
  {octets : List UInt8} {raw : List Char} {place : List String}

theorem exists_runIn_retold (hL : L ∈ Builtin.locales.map Prod.fst)
    (hparse : Invocation.parse arguments = .ok (.convert (.plain verbose .standard)
      (.plain .translate (.file source) (some target) (some L) (some L))))
    (platform : Platform) (input : List UInt8) (environment : String → Option String)
    (hopened : tree.read (Path.ofString source) = .ok octets)
    (hdecoded : Utf8.decode octets = .ok raw) (hleads : tree.LeadsTo (Path.ofString target) place) :
    ∃ v messages, Own v ∧ runIn platform tree input environment arguments =
      (⟨0, "", messages, none⟩,
        tree.put place (Utf8.encode (retold v (String.ofList (Text.unifyNewlines raw))))) := by
  obtain ⟨registry, haccepted⟩ := exists_builtin .standard
  obtain ⟨v, hv, hown⟩ := exists_own hL haccepted
  have hcode : (Origin.file source).content ⟨platform, tree.read, input, environment⟩ = .ok _ :=
    content_file hopened hdecoded rfl
  obtain ⟨messages, hrun⟩ :=
    runIn_of_saved hparse (converts_translate haccepted hv hv hcode) rfl hleads
  exact ⟨v, messages, hown, hrun⟩

/-- A file without tokens that is translated into its own locale is copied octet by octet just when
it holds no carriage return.  Otherwise its line ends are unified. -/
theorem copy_iff (hL : L ∈ Builtin.locales.map Prod.fst)
    (hparse : Invocation.parse arguments = .ok (.convert (.plain verbose .standard)
      (.plain .translate (.file source) (some target) (some L) (some L))))
    (platform : Platform) (input : List UInt8) (environment : String → Option String)
    (hopened : tree.read (Path.ofString source) = .ok octets)
    (hdecoded : Utf8.decode octets = .ok raw) (hfree : TokenFree (String.ofList raw))
    (hleads : tree.LeadsTo (Path.ofString target) place) :
    (runIn platform tree input environment arguments).1.status = 0 ∧
      ∃ written,
        (runIn platform tree input environment arguments).2.read (Path.ofString target) =
          .ok written ∧
        (written = octets ↔ '\r' ∉ raw) ∧
        (TokenFree (String.ofList (Text.unifyNewlines raw)) →
          written = Utf8.encode (String.ofList (Text.unifyNewlines raw))) := by
  obtain ⟨v, messages, hown, hrun⟩ :=
    exists_runIn_retold hL hparse platform input environment hopened hdecoded hleads
  rw [hrun]
  refine ⟨rfl, _, File.Tree.read_put _ hleads, hown.encode_retold_eq_iff hdecoded hfree, ?_⟩
  intro hunified
  rw [hown.retold_eq hunified]

end

/-- A line that is ended by a carriage return and a newline. -/
def returning : String := "a\r\nb"

def copying : List String := ["translate", "-i", "in.gbs", "-o", "out.gbs", "-f", "es", "-t", "es"]

theorem parse_copying : Invocation.parse copying = .ok (.convert (.plain false .standard)
    (.plain .translate (.file "in.gbs") (some "out.gbs") (some "es") (some "es"))) :=
  parse_eq_ok (by decide +kernel)

theorem tokenFree_returning : TokenFree (String.ofList returning.toList) := by
  decide

theorem copy_iff_returning :
    (runIn .usual (oneFile returning) [] (fun _ => none) copying).1.status = 0 ∧
      ∃ written,
        (runIn .usual (oneFile returning) [] (fun _ => none) copying).2.read
          (Path.ofString "out.gbs") = .ok written ∧
        written ≠ Utf8.encode returning := by
  obtain ⟨hstatus, written, hread, hsame, -⟩ := copy_iff (by decide) parse_copying .usual
    [] (fun _ => none) (read_oneFile _) (Utf8.decode_encode _) tokenFree_returning
    (leadsTo_oneFile _)
  refine ⟨hstatus, written, hread, fun heq => hsame.mp heq (by decide)⟩

/-- Valid content without tokens is not always copied. -/
theorem not_copied :
    ¬∀ L ∈ Builtin.locales.map Prod.fst, ∀ arguments verbose source target,
      Invocation.parse arguments = .ok (.convert (.plain verbose .standard)
        (.plain .translate (.file source) (some target) (some L) (some L))) →
      ∀ platform tree input environment octets raw place,
        tree.read (Path.ofString source) = .ok octets → Utf8.decode octets = .ok raw →
        TokenFree (String.ofList raw) → tree.LeadsTo (Path.ofString target) place →
        (runIn platform tree input environment arguments).1.status = 0 ∧
          (runIn platform tree input environment arguments).2.read (Path.ofString target) =
            .ok octets := by
  intro hclaim
  have hname : "es" ∈ Builtin.locales.map Prod.fst := by decide
  have hdecoded := Utf8.decode_encode returning
  obtain ⟨-, hread⟩ := hclaim "es" hname copying false _ _ parse_copying .usual
    (oneFile returning) [] (fun _ => none) _ _ _ (read_oneFile _) hdecoded tokenFree_returning
    (leadsTo_oneFile _)
  obtain ⟨v, messages, hown, hrun⟩ := exists_runIn_retold hname parse_copying .usual []
    (fun _ => none) (read_oneFile _) hdecoded (leadsTo_oneFile _)
  rw [hrun, File.Tree.read_put _ (leadsTo_oneFile _)] at hread
  have hcopied := hown.encode_retold_eq_iff hdecoded tokenFree_returning
  exact hcopied.mp (Except.ok.inj hread) (by decide)

end Vernacular.CommandLine
