import Mathlib.Data.List.DropRight
import Mathlib.Data.List.Nodup
import TradingBroker.Lib.Rows
import TradingBroker.Broadcast.Rows
import TradingBroker.Broadcast.Targets

/-!
# One destination, one key

A chat of a cycle goes by three names: the text of its entry in the setting, by which
`_parse` and `_targets` drop repetitions; the `ChatTarget` it is parsed to, which is what is
sent; and `_raw_id`, which is what its row is stored and found under. The last two tell the
same things apart (`rawId_injective`), since a key with a topic is an entry with a topic.
The first tells apart more: `int()` reads a topic in more than one spelling, with zeros in
front or in the digits of other scripts, so two entries that differ as texts may be one
topic (`pyInt_eq_numeral`), which then is a target twice. And Telegram may find one chat
under two texts, which is not for the code to know: `chatOf` stands for what it finds.
`targets_apart_iff` says that nothing else can go wrong.
-/

namespace TradingBroker.Broadcast

/-! ## Entries -/

/-- The entries of a setting. -/
def entriesOf (raw : String) : List String := ((pySplit ',' raw).map stripped).filter (· ≠ "")

theorem not_mem_of_mem_splitOn {sep : Char} {cs part : List Char} (h : part ∈ cs.splitOn sep) :
    sep ∉ part := by
  induction cs generalizing part with
  | nil =>
      rw [List.splitOn_nil, List.mem_singleton] at h
      rw [h]
      exact List.not_mem_nil
  | cons c cs ih =>
      rw [List.splitOn_cons_eq_if_modifyHead] at h
      split at h
      · rcases List.mem_cons.1 h with rfl | h
        · exact List.not_mem_nil
        · exact ih h
      · next hc =>
          have hne : sep ≠ c := fun heq => hc (heq ▸ beq_self_eq_true sep)
          cases hparts : cs.splitOn sep with
          | nil => exact absurd hparts (List.splitOn_ne_nil sep cs)
          | cons head parts =>
              rw [hparts, List.modifyHead_cons] at h
              rcases List.mem_cons.1 h with rfl | h
              · rw [List.mem_cons, not_or]
                exact ⟨hne, ih (hparts ▸ List.mem_cons_self)⟩
              · exact ih (hparts ▸ List.mem_cons_of_mem _ h)

theorem stripped_stripped (s : String) : stripped (stripped s) = stripped s := by
  rw [stripped, stripped, String.toList_ofList, trim_trim]

/-- An entry is not split or stripped again. -/
theorem parseChatTargets_entry {raw e : String} (h : e ∈ entriesOf raw) :
    parseChatTargets e = (parseChatTarget e).map fun t => [t] := by
  obtain ⟨he, hne⟩ := List.mem_filter.1 h
  obtain ⟨part, hpart, rfl⟩ := List.mem_map.1 he
  obtain ⟨cs, hcs, rfl⟩ := List.mem_map.1 hpart
  have hcomma : ',' ∉ (stripped (String.ofList cs)).toList := by
    intro hmem
    rw [stripped, String.toList_ofList] at hmem
    have h' := trim_subset _ _ hmem
    rw [String.toList_ofList] at h'
    exact not_mem_of_mem_splitOn hcs h'
  have hsplit : pySplit ',' (stripped (String.ofList cs)) = [stripped (String.ofList cs)] := by
    rw [pySplit, List.splitOn_eq_singleton hcomma, List.map_singleton, String.ofList_toList]
  have hempty : ¬ stripped (String.ofList cs) = "" := by simpa using hne
  rw [parseChatTargets, hsplit]
  simp only [List.foldlM_cons, List.foldlM_nil, stripped_stripped, if_neg hempty]
  cases parseChatTarget (stripped (String.ofList cs)) with
  | none => rfl
  | some t => rfl

/-! ## Lists of targets -/

/-- A list of targets under the texts of their entries, each of `es` once. -/
structure Keyed {α : Type} (chat : α → ChatTarget) (es : List String)
    (items : List (String × α)) : Prop where
  nodup : (items.map Prod.fst).Nodup
  parsed : ∀ item ∈ items, parseChatTarget item.1 = some (chat item.2)
  mem : ∀ e, e ∈ items.map Prod.fst ↔ e ∈ es

section
variable {α : Type} {chat : α → ChatTarget} {es es' : List String} {items : List (String × α)}

theorem Keyed.nil : Keyed chat [] ([] : List (String × α)) where
  nodup := List.nodup_nil
  parsed _ h := absurd h List.not_mem_nil
  mem _ := Iff.rfl

theorem Keyed.of_mem_iff (h : Keyed chat es items) (hmem : ∀ e, e ∈ es ↔ e ∈ es') :
    Keyed chat es' items :=
  ⟨h.nodup, h.parsed, fun e => (h.mem e).trans (hmem e)⟩

theorem Keyed.concat (h : Keyed chat es items) {e : String} {a : α} (hnew : e ∉ es)
    (hparsed : parseChatTarget e = some (chat a)) :
    Keyed chat (es ++ [e]) (items ++ [(e, a)]) where
  nodup := by
    refine Lib.nodup_map_concat h.nodup fun item hitem heq => hnew ?_
    rw [← h.mem, ← show item.1 = e from heq]
    exact List.mem_map_of_mem hitem
  parsed item hitem := by
    rcases List.mem_append.1 hitem with hitem | hitem
    · exact h.parsed item hitem
    · rw [List.mem_singleton.1 hitem]
      exact hparsed
  mem e' := by
    rw [List.map_append, List.mem_append, List.mem_append, h.mem]
    rfl

/-- What is there already is not taken again. -/
theorem Keyed.again (h : Keyed chat es items) {e : String} (hold : e ∈ es) :
    Keyed chat (es ++ [e]) items := by
  refine h.of_mem_iff fun e' => ?_
  rw [List.mem_append, List.mem_singleton]
  constructor
  · exact .inl
  · rintro (h' | rfl)
    · exact h'
    · exact hold

theorem Keyed.any_iff (h : Keyed chat es items) (e : String) :
    (items.any fun item => item.1 == e) = true ↔ e ∈ es := by
  rw [← h.mem, List.any_eq_true, List.mem_map]
  simp only [beq_iff_eq]

end

/-- What one part of a setting adds to the list. -/
def takeEntry (pairs : List (String × ChatTarget)) (part : String) :
    Option (List (String × ChatTarget)) :=
  let entry := stripped part
  if entry = "" ∨ (pairs.any fun pair => pair.1 == entry) = true then some pairs
  else (parseChatTargets entry).map fun parsed =>
    match parsed with
    | [] => pairs
    | target :: _ => pairs ++ [(entry, target)]

theorem keyed_takeEntry {raw part : String} {es : List String}
    {pairs pairs' : List (String × ChatTarget)} (hpart : part ∈ pySplit ',' raw)
    (hes : Keyed id es pairs) (h : takeEntry pairs part = some pairs') :
    Keyed id (es ++ [stripped part].filter (· ≠ "")) pairs' := by
  simp only [takeEntry] at h
  by_cases hempty : stripped part = ""
  · rw [if_pos (.inl hempty), Option.some.injEq] at h
    subst h
    simpa [hempty] using hes
  · have hfilter : [stripped part].filter (· ≠ "") = [stripped part] := by simp [hempty]
    rw [hfilter]
    by_cases hold : stripped part ∈ es
    · rw [if_pos (.inr ((hes.any_iff _).2 hold)), Option.some.injEq] at h
      subst h
      exact hes.again hold
    · have hmem : stripped part ∈ entriesOf raw :=
        List.mem_filter.2 ⟨List.mem_map_of_mem hpart, by simpa using hempty⟩
      have hneg :
        ¬ (stripped part = "" ∨ (pairs.any fun pair => pair.1 == stripped part) = true) := by
        rintro (h' | h')
        · exact hempty h'
        · exact hold ((hes.any_iff _).1 h')
      rw [if_neg hneg, parseChatTargets_entry hmem] at h
      cases hparsed : parseChatTarget (stripped part) with
      | none => rw [hparsed] at h; cases h
      | some t =>
          rw [hparsed] at h
          cases h
          exact hes.concat hold hparsed

theorem keyed_parseEntries {raw : Option String} {pairs : List (String × ChatTarget)}
    (h : parseEntries raw = some pairs) : Keyed id (entriesOf (raw.getD "")) pairs := by
  have hparts : ∀ (parts : List String), (∀ p ∈ parts, p ∈ pySplit ',' (raw.getD "")) →
      ∀ (es : List String) (items pairs : List (String × ChatTarget)), Keyed id es items →
        parts.foldlM takeEntry items = some pairs →
        Keyed id (es ++ (parts.map stripped).filter (· ≠ "")) pairs := by
    intro parts
    induction parts with
    | nil =>
        intro _ es items pairs hes h
        rw [List.foldlM_nil] at h
        cases h
        rw [List.map_nil, List.filter_nil, List.append_nil]
        exact hes
    | cons part parts ih =>
        intro hmem es items pairs hes h
        rw [List.foldlM_cons] at h
        obtain ⟨items', hone, hrest⟩ := Option.bind_eq_some_iff.1 h
        have hnext := ih (fun p hp => hmem p (List.mem_cons_of_mem _ hp)) _ _ _
          (keyed_takeEntry (hmem part List.mem_cons_self) hes hone) hrest
        rw [List.append_assoc, ← List.filter_append, List.singleton_append] at hnext
        rwa [List.map_cons]
  have hall := hparts _ (fun _ hp => hp) [] [] pairs .nil h
  rwa [List.nil_append] at hall

/-! ## The targets -/

theorem keyed_setDefault {es : List String} {d : List (String × Target)}
    (hes : Keyed Target.chat es d) {raw : String} {t : Target}
    (h : parseChatTarget raw = some t.chat) :
    Keyed Target.chat (es ++ [raw]) (setDefault d raw t) := by
  unfold setDefault
  split
  · next hold => exact hes.again ((hes.any_iff raw).1 hold)
  · next hnew => exact hes.concat (fun h' => hnew ((hes.any_iff raw).2 h')) h

theorem keyed_foldl (audience : Audience) {es : List String} (pairs : List (String × ChatTarget))
    (hpairs : ∀ pair ∈ pairs, parseChatTarget pair.1 = some pair.2)
    {d : List (String × Target)} (hes : Keyed Target.chat es d) :
    Keyed Target.chat (es ++ pairs.map Prod.fst)
      (pairs.foldl (fun d pair => setDefault d pair.1 ⟨audience, pair.2⟩) d) := by
  induction pairs generalizing es d with
  | nil =>
      rw [List.map_nil, List.append_nil]
      exact hes
  | cons pair pairs ih =>
      have hnext := ih (fun p hp => hpairs p (List.mem_cons_of_mem _ hp))
        (keyed_setDefault (t := ⟨audience, pair.2⟩) hes (hpairs pair List.mem_cons_self))
      rw [List.append_assoc, List.singleton_append] at hnext
      rwa [List.map_cons]

/-- The entries of the two settings. -/
def allEntries (privateRaw : String) (publicRaw : Option String) : List String :=
  entriesOf privateRaw ++ entriesOf (publicRaw.getD "")

/-- The targets are those of the entries, one for each text. -/
theorem keyed_targets {privateRaw : String} {publicRaw : Option String} {ts : List Target}
    (h : targets privateRaw publicRaw = some ts) :
    ∃ items, Keyed Target.chat (allEntries privateRaw publicRaw) items ∧
      ts = items.map Prod.snd := by
  obtain ⟨priv, hpriv, h⟩ := Option.bind_eq_some_iff.1 h
  obtain ⟨pub, hpub, h⟩ := Option.bind_eq_some_iff.1 h
  have hp := keyed_parseEntries hpriv
  have hq := keyed_parseEntries hpub
  have hone := keyed_foldl .privateChats priv hp.parsed .nil
  have htwo := keyed_foldl .publicChats pub hq.parsed hone
  refine ⟨_, htwo.of_mem_iff fun e => ?_, (Option.some.inj h).symm⟩
  rw [allEntries, List.nil_append, List.mem_append, List.mem_append, hp.mem, hq.mem]
  rfl

/-! ## Keys -/

theorem pyDigit_underscore : pyDigit '_'.toNat = none := by decide

theorem underscore_not_mem_of_isDigits {cs : List Char} (h : isDigits cs = true) : '_' ∉ cs := by
  intro hmem
  have hall := (Bool.and_eq_true_iff.1 h).2
  have hdigit := List.all_eq_true.1 hall '_' hmem
  rw [pyDigit_underscore] at hdigit
  cases hdigit

theorem underscore_not_mem_of_isSignedDigits {cs : List Char} (h : isSignedDigits cs = true) :
    '_' ∉ cs := by
  unfold isSignedDigits at h
  split at h
  · rw [List.mem_cons, not_or]
    exact ⟨by decide, underscore_not_mem_of_isDigits h⟩
  · exact underscore_not_mem_of_isDigits h

theorem pySplit_underscore {chat topic : String} (hchat : '_' ∉ chat.toList)
    (htopic : '_' ∉ topic.toList) : pySplit '_' (chat ++ "_" ++ topic) = [chat, topic] := by
  have hlist : (chat ++ "_" ++ topic).toList = chat.toList ++ '_' :: topic.toList := by
    simp [String.toList_append]
  rw [pySplit, hlist, List.splitOn_append_cons_self, List.splitOn_eq_singleton hchat,
    List.splitOn_eq_singleton htopic]
  simp

theorem isDigits_toString (n : Nat) : isDigits (toString n).toList = true := by
  have hdigit : ∀ c ∈ (toString n).toList, c.isDigit = true := by
    intro c hc
    rw [Nat.toString_eq_repr, Nat.toList_repr] at hc
    exact Nat.isDigit_of_mem_toDigits (by decide) (by decide) hc
  rw [isDigits, Bool.and_eq_true_iff]
  refine ⟨by simp, List.all_eq_true.2 fun c hc => ?_⟩
  have hc := hdigit c hc
  simp only [Char.isDigit, Bool.and_eq_true, decide_eq_true_eq] at hc
  have hlo : 0x30 ≤ c.toNat := hc.1
  have hhi : c.toNat ≤ 0x30 + 9 := hc.2
  rw [pyDigit, decimalZeros, List.findSome?_cons, if_pos ⟨hlo, hhi⟩]
  rfl

theorem toString_nat_injective {m n : Nat} (h : toString m = toString n) : m = n := by
  have hlist := congrArg (fun s : String => Nat.ofDigitChars 10 s.toList 0) h
  simpa only [Nat.toString_eq_repr, Nat.toList_repr, Nat.ofDigitChars_ten_toDigits] using hlist

/-! ## Numerals -/

/-- The number a numeral is read as, whatever script its digits are of. -/
def numeral (topic : String) : Nat :=
  topic.toList.foldl (fun n c => 10 * n + (pyDigit c.toNat).getD 0) 0

/-- No decimal digit of any script is a blank. -/
theorem pyDigit_of_isPySpace {c : Nat} (h : isPySpace c = true) : pyDigit c = none := by
  have hapart : ∀ z ∈ decimalZeros, ∀ k < 10, isPySpace (z + k) = false := by decide +kernel
  rw [pyDigit, List.findSome?_eq_none_iff]
  intro z hz
  rw [if_neg]
  rintro ⟨hlo, hhi⟩
  have hspace := hapart z hz (c - z) (by omega)
  rw [Nat.add_sub_cancel' hlo, h] at hspace
  cases hspace

theorem pyDigits_cons {c d : Nat} (hd : pyDigit c = some d) (after : Bool) (value : Nat)
    (cs : PyStr) : pyDigits after value (c :: cs) = pyDigits true (10 * value + d) cs := by
  have hne : ¬ c = 0x5f := by
    rintro rfl
    have hnone : pyDigit 0x5f = none := by decide
    rw [hnone] at hd
    cases hd
  rw [pyDigits, if_neg hne, hd]

/-- Digits are read one after the other. -/
theorem pyDigits_of_isDigits {cs : List Char} (h : ∀ c ∈ cs, (pyDigit c.toNat).isSome = true)
    (value : Nat) :
    pyDigits true value (cs.map Char.toNat) =
      some (cs.foldl (fun n c => 10 * n + (pyDigit c.toNat).getD 0) value) := by
  induction cs generalizing value with
  | nil => rfl
  | cons c cs ih =>
      obtain ⟨d, hd⟩ := Option.isSome_iff_exists.1 (h c List.mem_cons_self)
      rw [List.map_cons, pyDigits_cons hd, List.foldl_cons, hd]
      exact ih (fun c' hc' => h c' (List.mem_cons_of_mem _ hc')) _

/-- What `\d+` matches is read as the number it spells, if it is not too long to be read. -/
theorem pyInt_eq_numeral {topic : String} {n : Int} (hdigits : isDigits topic.toList = true)
    (h : pyInt topic = some n) : n = (numeral topic : Int) := by
  obtain ⟨hne, hall⟩ := Bool.and_eq_true_iff.1 hdigits
  have hall := List.all_eq_true.1 hall
  have hspace : ∀ c ∈ pyStr topic, isNumberSpace c = false := by
    intro c hc
    obtain ⟨d, hd, rfl⟩ := List.mem_map.1 hc
    cases hs : isPySpace d.toNat with
    | false => rw [isNumberSpace, hs, Bool.false_and]
    | true =>
        have hdigit := hall d hd
        rw [pyDigit_of_isPySpace hs] at hdigit
        cases hdigit
  have hread : pyDigits false 0 (pyStr topic) = some (numeral topic) := by
    have hvalue : pyDigits true 0 (topic.toList.map Char.toNat) = _ :=
      pyDigits_of_isDigits hall 0
    cases hcs : topic.toList with
    | nil => rw [hcs] at hne; cases hne
    | cons c cs =>
        obtain ⟨d, hd⟩ :=
          Option.isSome_iff_exists.1 (hall c (by rw [hcs]; exact List.mem_cons_self))
        rw [hcs, List.map_cons, pyDigits_cons hd] at hvalue
        rw [pyStr, hcs, List.map_cons, pyDigits_cons hd, numeral, hcs]
        exact hvalue
  have hbody : ∀ negative : Bool, negative = false →
      (if 4300 < ((pyStr topic).filter (· != 0x5f)).length then none
        else (pyDigits false 0 (pyStr topic)).map fun n => if negative then -(n : Int) else n) =
          some n → n = (numeral topic : Int) := by
    rintro negative rfl h
    split at h
    · cases h
    · rw [hread] at h
      exact (Option.some.inj h).symm
  have hsign : ∀ c, pyDigit c = none → ∀ cs, pyStr topic ≠ c :: cs := by
    intro c hc cs heq
    obtain ⟨d, hd, rfl⟩ :=
      List.mem_map.1 (show c ∈ pyStr topic by rw [heq]; exact List.mem_cons_self)
    have hdigit := hall d hd
    rw [hc] at hdigit
    cases hdigit
  simp only [pyInt, trim_eq_self hspace] at h
  split at h
  · next cs heq => exact absurd heq (hsign 0x2d (by decide) cs)
  · next cs heq => exact absurd heq (hsign 0x2b (by decide) cs)
  · exact hbody false rfl h

/-! ## What an entry names -/

/-- The chat, as a text. -/
def namedChat (entry : String) : String := ((chatTopic entry).map Prod.fst).getD entry

/-- The number of its topic, if it names one. -/
def namedTopic (entry : String) : Option Nat := (chatTopic entry).map fun p => numeral p.2

theorem isDigits_of_chatTopic {e chat topic : String} (h : chatTopic e = some (chat, topic)) :
    isSignedDigits chat.toList = true ∧ isDigits topic.toList = true := by
  unfold chatTopic at h
  split at h
  · split at h
    · next hboth =>
        cases h
        exact Bool.and_eq_true_iff.1 hboth
    · cases h
  · cases h

/-- An entry is parsed to what it names. -/
theorem parseChatTarget_eq {e : String} {t : ChatTarget} (h : parseChatTarget e = some t) :
    t = ⟨namedChat e, (namedTopic e).map Int.ofNat⟩ := by
  unfold parseChatTarget at h
  split at h
  · next hplain =>
      cases h
      rw [namedChat, namedTopic, hplain]
      rfl
  · next chat topic htopic =>
      obtain ⟨n, hn, rfl⟩ := Option.map_eq_some_iff.1 h
      rw [namedChat, namedTopic, htopic, pyInt_eq_numeral (isDigits_of_chatTopic htopic).2 hn]
      rfl

/-! ## Keys -/

/-- What an entry is parsed to: itself, or a chat and a topic. -/
theorem parseChatTarget_cases {e : String} {t : ChatTarget} (h : parseChatTarget e = some t) :
    (t = ⟨e, none⟩ ∧ chatTopic e = none) ∨
      ∃ (chat : String) (n : Nat), t = ⟨chat, some n⟩ ∧ isSignedDigits chat.toList = true := by
  rw [parseChatTarget_eq h, namedChat, namedTopic]
  cases htopic : chatTopic e with
  | none => exact .inl ⟨rfl, rfl⟩
  | some p => exact .inr ⟨p.1, numeral p.2, rfl, (isDigits_of_chatTopic htopic).1⟩

/-- A key with a topic is an entry with a topic. -/
theorem chatTopic_key {chat : String} (n : Nat) (h : isSignedDigits chat.toList = true) :
    chatTopic (chat ++ "_" ++ toString n) = some (chat, toString n) := by
  rw [chatTopic, pySplit_underscore (underscore_not_mem_of_isSignedDigits h)
    (underscore_not_mem_of_isDigits (isDigits_toString n))]
  simp only [h, isDigits_toString n, Bool.and_self, if_true]

theorem rawId_topic (chat : String) (n : Nat) :
    ChatTarget.rawId ⟨chat, some (n : Int)⟩ = chat ++ "_" ++ toString n := rfl

/-- A plain entry is no key of a topic. -/
theorem rawId_plain_ne {e chat : String} {n : Nat} (hplain : chatTopic e = none)
    (h : isSignedDigits chat.toList = true) :
    ChatTarget.rawId ⟨e, none⟩ ≠ ChatTarget.rawId ⟨chat, some (n : Int)⟩ := by
  intro heq
  have he : e = chat ++ "_" ++ toString n := heq
  rw [he, chatTopic_key n h] at hplain
  cases hplain

/-- Two parsed targets of one key are one target. -/
theorem rawId_injective {e e' : String} {t t' : ChatTarget} (h : parseChatTarget e = some t)
    (h' : parseChatTarget e' = some t') (hkey : t.rawId = t'.rawId) : t = t' := by
  rcases parseChatTarget_cases h with ⟨rfl, hplain⟩ | ⟨chat, n, rfl, hchat⟩
  · rcases parseChatTarget_cases h' with ⟨rfl, -⟩ | ⟨chat', n', rfl, hchat'⟩
    · have he : e = e' := hkey
      rw [he]
    · exact absurd hkey (rawId_plain_ne hplain hchat')
  · rcases parseChatTarget_cases h' with ⟨rfl, hplain'⟩ | ⟨chat', n', rfl, hchat'⟩
    · exact absurd hkey.symm (rawId_plain_ne hplain' hchat)
    · rw [rawId_topic, rawId_topic] at hkey
      have hsplit := congrArg chatTopic hkey
      rw [chatTopic_key n hchat, chatTopic_key n' hchat', Option.some.injEq,
        Prod.mk.injEq] at hsplit
      rw [hsplit.1, toString_nat_injective hsplit.2]

/-! ## One message a destination -/

section
variable {κ : Type} (chatOf : String → κ) {privateRaw : String} {publicRaw : Option String}

/-- No topic of a chat is written in two spellings of its number, and no chat under two of the
texts by which Telegram finds it (with the same topic, or none). -/
structure SpeltOnce (privateRaw : String) (publicRaw : Option String) : Prop where
  topics : ∀ e ∈ allEntries privateRaw publicRaw, ∀ e' ∈ allEntries privateRaw publicRaw,
    namedChat e = namedChat e' → namedTopic e = namedTopic e' → e = e'
  chats : ∀ e ∈ allEntries privateRaw publicRaw, ∀ e' ∈ allEntries privateRaw publicRaw,
    chatOf (namedChat e) = chatOf (namedChat e') → namedTopic e = namedTopic e' →
      namedChat e = namedChat e'

instance [DecidableEq κ] : Decidable (SpeltOnce chatOf privateRaw publicRaw) :=
  decidable_of_iff
    ((∀ e ∈ allEntries privateRaw publicRaw, ∀ e' ∈ allEntries privateRaw publicRaw,
      namedChat e = namedChat e' → namedTopic e = namedTopic e' → e = e') ∧
    ∀ e ∈ allEntries privateRaw publicRaw, ∀ e' ∈ allEntries privateRaw publicRaw,
      chatOf (namedChat e) = chatOf (namedChat e') → namedTopic e = namedTopic e' →
        namedChat e = namedChat e')
    ⟨fun h => ⟨h.1, h.2⟩, fun h => ⟨h.topics, h.chats⟩⟩

/-- Where a message to the target ends up: the chat Telegram finds, and the topic. -/
def Target.destination (t : Target) : κ × Option Int :=
  (chatOf t.chat.chatId, t.chat.messageThreadId)

/-- The targets are distinct as what is sent to and as what is stored under, and what a
pass stores for one of them is not what the next pass finds for another. -/
structure Apart (ts : List Target) : Prop where
  destinations : (ts.map (Target.destination chatOf)).Nodup
  keys : (ts.map Target.rawId).Nodup
  rows : ts.Pairwise fun t t' => ∀ (c : Cycle) (u : ChatUpsert),
    (u.chatId = t.rawId → chat? (c.upsertChat u).chats t'.rawId = chat? c.chats t'.rawId) ∧
    (u.chatId = t'.rawId → chat? (c.upsertChat u).chats t.rawId = chat? c.chats t.rawId)

theorem rows_of_keys {ts : List Target} (h : (ts.map Target.rawId).Nodup) :
    ts.Pairwise fun t t' => ∀ (c : Cycle) (u : ChatUpsert),
      (u.chatId = t.rawId → chat? (c.upsertChat u).chats t'.rawId = chat? c.chats t'.rawId) ∧
      (u.chatId = t'.rawId → chat? (c.upsertChat u).chats t.rawId = chat? c.chats t.rawId) := by
  refine (List.pairwise_map.1 h).imp fun hne c u => ⟨fun hu => ?_, fun hu => ?_⟩
  · rw [chat?_upsertChat, if_neg fun heq => hne (heq.trans hu).symm]
  · rw [chat?_upsertChat, if_neg fun heq => hne (heq.trans hu)]

section
variable {chatOf} {es : List String} {items : List (String × Target)}
  {item item' : String × Target}

theorem Keyed.chatId (hes : Keyed Target.chat es items) (h : item ∈ items) :
    item.2.chat.chatId = namedChat item.1 := by
  rw [parseChatTarget_eq (hes.parsed item h)]

theorem Keyed.messageThreadId (hes : Keyed Target.chat es items) (h : item ∈ items) :
    item.2.chat.messageThreadId = (namedTopic item.1).map Int.ofNat := by
  rw [parseChatTarget_eq (hes.parsed item h)]

/-- One key, one chat and topic. -/
theorem Keyed.rawId_eq_iff (hes : Keyed Target.chat es items) (h : item ∈ items)
    (h' : item' ∈ items) : item.2.rawId = item'.2.rawId ↔
      namedChat item.1 = namedChat item'.1 ∧ namedTopic item.1 = namedTopic item'.1 := by
  have hinj : Function.Injective (Option.map Int.ofNat) :=
    Option.map_injective fun _ _ => Int.ofNat.inj
  constructor
  · intro heq
    have hchat := rawId_injective (hes.parsed item h) (hes.parsed item' h') heq
    refine ⟨?_, hinj ?_⟩
    · rw [← hes.chatId h, ← hes.chatId h', hchat]
    · rw [← hes.messageThreadId h, ← hes.messageThreadId h', hchat]
  · rintro ⟨hchat, htopic⟩
    rw [Target.rawId, Target.rawId, parseChatTarget_eq (hes.parsed item h),
      parseChatTarget_eq (hes.parsed item' h'), hchat, htopic]

theorem Keyed.destination_eq_iff (hes : Keyed Target.chat es items) (h : item ∈ items)
    (h' : item' ∈ items) : item.2.destination chatOf = item'.2.destination chatOf ↔
      chatOf (namedChat item.1) = chatOf (namedChat item'.1) ∧
        namedTopic item.1 = namedTopic item'.1 := by
  have hinj : Function.Injective (Option.map Int.ofNat) :=
    Option.map_injective fun _ _ => Int.ofNat.inj
  rw [Target.destination, Target.destination, hes.chatId h, hes.chatId h', hes.messageThreadId h,
    hes.messageThreadId h', Prod.mk.injEq, hinj.eq_iff]

/-- What the targets are told apart by, in terms of the texts they were listed under. -/
theorem Keyed.nodup_iff (hes : Keyed Target.chat es items) {β : Type} (f : Target → β)
    (same : String → String → Prop)
    (hsame : ∀ {item item'}, item ∈ items → item' ∈ items →
      (f item.2 = f item'.2 ↔ same item.1 item'.1)) :
    ((items.map Prod.snd).map f).Nodup ↔ ∀ e ∈ es, ∀ e' ∈ es, same e e' → e = e' := by
  rw [List.map_map]
  constructor
  · intro hnodup e he e' he' heq
    obtain ⟨item, hitem, rfl⟩ := List.mem_map.1 ((hes.mem e).2 he)
    obtain ⟨item', hitem', rfl⟩ := List.mem_map.1 ((hes.mem e').2 he')
    rw [List.inj_on_of_nodup_map hnodup hitem hitem' ((hsame hitem hitem').2 heq)]
  · intro hspelt
    rw [List.Nodup, List.pairwise_map]
    refine (List.pairwise_map.1 hes.nodup).imp_of_mem fun hitem hitem' hne heq => hne ?_
    have hmem := (hes.mem _).1 (List.mem_map_of_mem hitem)
    have hmem' := (hes.mem _).1 (List.mem_map_of_mem hitem')
    exact hspelt _ hmem _ hmem' ((hsame hitem hitem').1 heq)

end

/-- The targets of a pass are apart exactly if no two entries of the settings are two
spellings of one destination. -/
theorem targets_apart_iff {ts : List Target} (h : targets privateRaw publicRaw = some ts) :
    Apart chatOf ts ↔ SpeltOnce chatOf privateRaw publicRaw := by
  obtain ⟨items, hes, rfl⟩ := keyed_targets h
  have hkeys := hes.nodup_iff Target.rawId
    (fun e e' => namedChat e = namedChat e' ∧ namedTopic e = namedTopic e') hes.rawId_eq_iff
  have hdestinations := hes.nodup_iff (Target.destination chatOf)
    (fun e e' => chatOf (namedChat e) = chatOf (namedChat e') ∧ namedTopic e = namedTopic e')
    hes.destination_eq_iff
  constructor
  · intro hapart
    have htopics := hkeys.1 hapart.keys
    have hchats := hdestinations.1 hapart.destinations
    refine ⟨fun e he e' he' hchat htopic => htopics e he e' he' ⟨hchat, htopic⟩, ?_⟩
    intro e he e' he' hchat htopic
    rw [hchats e he e' he' ⟨hchat, htopic⟩]
  · intro hspelt
    have hnodup := hkeys.2 fun e he e' he' heq => hspelt.topics e he e' he' heq.1 heq.2
    refine ⟨hdestinations.2 fun e he e' he' heq => ?_, hnodup, rows_of_keys hnodup⟩
    exact hspelt.topics e he e' he' (hspelt.chats e he e' he' heq.1 heq.2) heq.2

end

/-- A topic that is configured with and without a leading zero is a target twice. -/
theorem not_targets_apart :
    ∃ ts, targets "-1002173777783_924584" (some "-1002173777783_0924584") = some ts ∧
      ∀ {κ : Type} (chatOf : String → κ), ¬ Apart chatOf ts :=
  ⟨[⟨.privateChats, "-1002173777783", some 924584⟩, ⟨.publicChats, "-1002173777783", some 924584⟩],
    by decide +kernel, fun _ h => absurd h.keys (by decide +kernel)⟩

theorem targets_apart_topics : ∃ ts,
    targets "-1002173777783_924584,-1002173777783_924585" (some "@public_channel") = some ts ∧
      Apart id ts := by
  have htargets : targets "-1002173777783_924584,-1002173777783_924585" (some "@public_channel") =
      some [⟨.privateChats, "-1002173777783", some 924584⟩,
        ⟨.privateChats, "-1002173777783", some 924585⟩,
        ⟨.publicChats, "@public_channel", none⟩] := by
    decide +kernel
  exact ⟨_, htargets, (targets_apart_iff id htargets).2 (by decide +kernel)⟩

-- the digit seven of Kawi
example : targets "-1002173777783_7"
    (some ("-1002173777783_" ++ String.singleton (Char.ofNat 0x11f57))) =
      some [⟨.privateChats, "-1002173777783", some 7⟩,
        ⟨.publicChats, "-1002173777783", some 7⟩] := by
  decide +kernel

end TradingBroker.Broadcast
