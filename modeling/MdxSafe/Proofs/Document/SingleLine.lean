-- SUMMARY: The headings of a document, and which of them are written over more than one line.
import MdxSafe.Proofs.Markdown.Draft
import MdxSafe.Proofs.Outline.Layout
import MdxSafe.Proofs.Tree.Page

/-!
# Headings of a document

Every heading of a document that was read holds the nodes of one running text (`Node.hasHeadings_parse`). A heading is meant
to be written on one line, and soft and hard breaks in it become spaces. Payloads of HTML and titles are written as they
are, though, and they may hold line breaks in a heading that is underlined, or by a character reference. These are the
only ones (`mem_block_of_heading_iff`).
-/

namespace MdxSafe

open Assembly Outline

variable {refs : List Reference} {ts : List Token} {n : Node}

-- ---------------------------------------------------------------------------
-- Running text
-- ---------------------------------------------------------------------------

/-- Running text is tame. Line ends are literal in it only if it holds as many links as the greatest depth. -/
theorem isTame_runningNodes (hrefs : Reference.AreUnbroken refs) (u : Text) :
    ∀ m ∈ runningNodes refs u,
      m.IsTame (Inline.maxDepth ≤ ((runningNodes refs u).flatMap Node.nodes).countP fun l => l.kind = .link) := by
  obtain ⟨n, hn⟩ := Node.assemble_ok (Inline.allAssemble_parse refs u) Node.emptyRoot
  have hnodes : runningNodes refs u = n.children := by
    rw [runningNodes, hn]
    rfl
  rw [hnodes, Node.links_assemble hn]
  exact (preserves_isTame (Inline.areSeated_parse hrefs u)).of_assemble hn

-- ---------------------------------------------------------------------------
-- Trees
-- ---------------------------------------------------------------------------

namespace Node

/-- A heading that tells its level, over a running text. -/
inductive IsHeading (refs : List Reference) (n : Node) : Prop
  | over (level : Nat) (u : Text) (hlevel : n.attrs.get? "level" = some (.int (.ofNat level)))
      (hchildren : n.children = runningNodes refs u)

/-- Every heading among the nodes of a tree is over a running text. -/
def HasHeadings (refs : List Reference) (n : Node) : Prop := ∀ m ∈ n.nodes, m.kind = .heading → m.IsHeading refs

theorem hasHeadings_iff :
    n.HasHeadings refs ↔ (n.kind = .heading → n.IsHeading refs) ∧ ∀ c ∈ n.children, c.HasHeadings refs := by
  simp only [HasHeadings, nodes_eq n, List.forall_mem_cons, List.mem_flatMap]
  constructor
  · exact fun h => ⟨h.1, fun c hc m hm => h.2 m ⟨c, hc, hm⟩⟩
  · exact fun h => ⟨h.1, fun m ⟨c, hc, hm⟩ => h.2 c hc m hm⟩

theorem hasHeadings_of_kind (hkind : n.kind ≠ .heading) (hchildren : ∀ c ∈ n.children, c.HasHeadings refs) :
    n.HasHeadings refs := hasHeadings_iff.2 ⟨fun h => absurd h hkind, hchildren⟩

/-- There is no heading in running text. -/
theorem IsTame.hasHeadings {deep : Prop} (h : n.IsTame deep) : n.HasHeadings refs := by
  induction h with
  | text hkind _ hleaf | escape hkind _ hleaf | code hkind _ _ hleaf | html hkind _ hleaf =>
    exact hasHeadings_of_kind (by simp [hkind]) (by simp [hleaf])
  | lineEnd hkind hleaf =>
    exact hasHeadings_of_kind (by rcases hkind with h | h <;> simp [h]) (by simp [hleaf])
  | marked hkind _ _ ih => exact hasHeadings_of_kind (by rcases hkind with h | h | h <;> simp [h]) ih
  | link hkind _ _ _ ih | image hkind _ _ ih => exact hasHeadings_of_kind (by simp [hkind]) ih
  | autolink hkind _ _ _ hchildren =>
    refine hasHeadings_of_kind (by simp [hkind]) fun c hc => ?_
    obtain ⟨hkind, hleaf⟩ := hchildren c hc
    exact hasHeadings_of_kind (by simp [hkind]) (by simp [hleaf])

theorem hasHeadings_of_heading {level : Nat} {u : Text} (hrefs : Reference.AreUnbroken refs)
    (hlevel : n.attrs.get? "level" = some (.int (.ofNat level))) (hchildren : n.children = runningNodes refs u) :
    n.HasHeadings refs := by
  refine hasHeadings_iff.2 ⟨fun _ => .over level u hlevel hchildren, fun c hc => ?_⟩
  rw [hchildren] at hc
  exact (isTame_runningNodes hrefs u c hc).hasHeadings

end Node

-- ---------------------------------------------------------------------------
-- Documents
-- ---------------------------------------------------------------------------

theorem keeps_hasHeadings (hkind : n.kind ≠ .heading) (hchildren : n.children = []) :
    ({ node := n } : Frame).Keeps (Node.HasHeadings refs) := by
  intro ns hns
  have hall : ∀ c ∈ ns.reverse, c.HasHeadings refs := fun c hc => hns c (List.mem_reverse.1 hc)
  refine ⟨Node.hasHeadings_of_kind hkind ?_, Node.hasHeadings_of_kind ?_ ?_⟩
  · simpa [Frame.close, hchildren] using hns
  · have hfinish := Frame.asOpened_finish { node := n, filed := ns }
    exact fun h => hkind (congrArg Node.kind hfinish ▸ h)
  · rw [Frame.children_finish]
    simpa [hchildren] using hns

/-- A token other than that of a heading files no heading, and running text has none. -/
theorem sound_loose (hrefs : Reference.AreUnbroken refs) {s s' : State} {t : Token} (ht : Block.IsLoose t)
    (h : Does s (Markdown.readRunning refs t) s') (hs : Sound (Node.HasHeadings refs) s.top s.outer) :
    Sound (Node.HasHeadings refs) s'.top s'.outer := by
  have hkind : (Markdown.readRunning refs t).kind = t.kind := by
    unfold Markdown.readRunning
    split <;> rfl
  cases h with
  | ofSection => exact hs
  | opens _ _ hopen =>
    refine sound_open hs (keeps_hasHeadings ?_ (Token.openedNode_spec hopen).1)
    rw [Token.kind_openedNode hopen, hkind]
    have hheading : ∀ {k : TokenKind}, k ≠ .headingOpen → k.container ≠ .heading := by
      intro k hk
      cases k <;> first | contradiction | simp [TokenKind.container]
    exact hheading ht.1
  | closes => exact sound_close hs
  | running hinline _ hinside =>
    rw [Markdown.readRunning, if_pos (hkind.symm.trans hinline)] at hinside
    have htame := (preserves_isTame (Inline.areSeated_parse hrefs t.content)).of_assemble hinside
    exact hs.fileAll fun m hm => (htame m hm).hasHeadings
  | image himage => exact absurd (hkind.symm.trans himage) ht.2
  | leaf =>
    refine hs.file (Node.hasHeadings_of_kind ?_ ?_)
    · unfold Token.leafNode
      cases (Markdown.readRunning refs t).kind <;> simp
    · simp [Token.children_leafNode]

/-- The tokens of blocks file trees whose headings are over running texts. -/
theorem preserves_hasHeadings (hrefs : Reference.AreUnbroken refs) (h : Block.IsStream ts) :
    Preserves (Node.HasHeadings refs) (readAll refs ts) := by
  induction h with
  | nil => exact .nil
  | loose ht _ ih => exact .cons (sound_loose hrefs ht) ih
  | heading hlevel markup u _ ih =>
    rw [readAll_append]
    refine Preserves.append (.of_fileAll (fun s => files_headingTokens hlevel.1 hlevel.2 markup u s rfl) fun m hm => ?_) ih
    obtain rfl := List.mem_singleton.1 hm
    exact Node.hasHeadings_of_heading hrefs rfl (by dsimp only)

/-- The definitions of a document have unbroken targets, and each of its headings is over a running text. -/
theorem Node.hasHeadings_parse {t : Text} {tree : Node} (h : Node.parse t = .ok tree) :
    ∃ refs, Reference.AreUnbroken refs ∧ tree.HasHeadings refs := by
  obtain ⟨⟨tokens, refs⟩, hread, h⟩ := exists_of_bind_eq_ok h
  obtain ⟨⟨ts, refs'⟩, hblocks, hread⟩ := exists_of_bind_eq_ok hread
  cases hread
  cases h
  obtain ⟨hstream, hrefs⟩ := Block.fine_parse hblocks
  refine ⟨refs', hrefs, ?_⟩
  have hdefinitions : ∀ c ∈ refs'.map Reference.toNode, c.HasHeadings refs' := by
    intro c hc
    obtain ⟨r, -, rfl⟩ := List.mem_map.1 hc
    exact hasHeadings_of_kind (by simp [Reference.toNode]) (by simp [Reference.toNode])
  have hroot : ∀ root : Node, root.kind = .root → (∀ c ∈ root.children, c.HasHeadings refs') →
      { root with children := root.children ++ refs'.map Reference.toNode }.HasHeadings refs' := by
    intro root hkind hchildren
    refine hasHeadings_of_kind (by simp [hkind]) fun c hc => ?_
    rcases List.mem_append.1 hc with hc | hc
    · exact hchildren c hc
    · exact hdefinitions c hc
  cases hassemble : emptyRoot.assemble (ts.map (Markdown.readRunning refs')) with
  | error e => exact hroot emptyRoot rfl (by simp [emptyRoot])
  | ok root =>
    obtain ⟨m, -, heq⟩ := assemble_eq hassemble
    exact hroot root (by rw [heq]; rfl) ((preserves_hasHeadings hrefs hstream).of_assemble hassemble)

-- ---------------------------------------------------------------------------
-- Lines
-- ---------------------------------------------------------------------------

/-- A heading of a document is written, and its line breaks just if HTML in it holds a line break, or the title of a link
or an image in it does. At the greatest depth of links the reader takes line ends for literal characters; so deep a
heading holds as many links. -/
theorem mem_block_of_heading_iff {t : Text} {tree n : Node} (opts : Layout.Options) (htree : Node.parse t = .ok tree)
    (hn : n ∈ tree.nodes) (hkind : n.kind = .heading)
    (hlinks : (n.nodes.countP fun m => m.kind = .link) < Inline.maxDepth) :
    ∃ line, Layout.block opts n = .ok line ∧ ('\n' ∈ line ↔ ∃ m ∈ n.nodes, m.holdsBreak = true) := by
  obtain ⟨refs, hrefs, hheadings⟩ := Node.hasHeadings_parse htree
  obtain ⟨level, u, hlevel, hchildren⟩ := hheadings n hn hkind
  refine ⟨_, Layout.block_of_heading hkind (heading_eq hlevel), ?_⟩
  have hself : n.holdsBreak = false := by simp [Node.holdsBreak, hkind]
  rw [Node.nodes_eq, hchildren] at hlinks ⊢
  have hdeep : ¬ Inline.maxDepth ≤ ((runningNodes refs u).flatMap Node.nodes).countP fun l => l.kind = .link := by
    rw [List.countP_cons] at hlinks
    omega
  rw [Layout.mem_headingLine_iff hdeep (isTame_runningNodes hrefs u)]
  simp [hself]

/-- A heading over two lines of a quote, with a link in it, is written on one. -/
theorem mem_block_of_heading_iff_sample :
    ∃ tree n line, Node.parse "> a\n> [*b*\\\n](c 'd')\n> ===\n" = .ok tree ∧ n ∈ tree.nodes ∧ n.kind = .heading
      ∧ Layout.block {} n = .ok line ∧ '\n' ∉ line := by
  have h : (Node.parse "> a\n> [*b*\\\n](c 'd')\n> ===\n").toOption.any fun tree =>
      tree.nodes.any fun n => decide (n.kind = .heading) && decide ((n.nodes.countP fun m => m.kind = .link) < Inline.maxDepth)
        && decide (∀ m ∈ n.nodes, m.holdsBreak = false) := by
    decide +kernel
  obtain ⟨tree, htree, h⟩ := (Option.any_eq_true _ _).1 h
  obtain ⟨n, hn, h⟩ := List.any_eq_true.1 h
  simp only [Bool.and_eq_true, decide_eq_true_eq] at h
  obtain ⟨⟨hkind, hlinks⟩, hnone⟩ := h
  have htree := eq_ok_of_toOption htree
  obtain ⟨line, hline, hiff⟩ := mem_block_of_heading_iff {} htree hn hkind hlinks
  refine ⟨tree, n, line, htree, hn, hkind, hline, fun hmem => ?_⟩
  obtain ⟨m, hm, hholds⟩ := hiff.1 hmem
  rw [hnone m hm] at hholds
  cases hholds

/-- HTML over two lines of an underlined heading is written over two lines. -/
theorem mem_block_of_heading_html :
    ∃ tree n line, Node.parse "<a\nb>\n===\n" = .ok tree ∧ n ∈ tree.nodes ∧ n.kind = .heading
      ∧ Layout.block {} n = .ok line ∧ '\n' ∈ line := by
  have h : (Node.parse "<a\nb>\n===\n").toOption.any fun tree =>
      tree.nodes.any fun n => decide (n.kind = .heading)
        && (Layout.block {} n).toOption.any fun line => decide ('\n' ∈ line) := by
    decide +kernel
  obtain ⟨tree, htree, h⟩ := (Option.any_eq_true _ _).1 h
  obtain ⟨n, hn, h⟩ := List.any_eq_true.1 h
  rw [Bool.and_eq_true, decide_eq_true_eq] at h
  obtain ⟨hkind, h⟩ := h
  obtain ⟨line, hline, hmem⟩ := (Option.any_eq_true _ _).1 h
  exact ⟨tree, n, line, eq_ok_of_toOption htree, hn, hkind, eq_ok_of_toOption hline, of_decide_eq_true hmem⟩

end MdxSafe
