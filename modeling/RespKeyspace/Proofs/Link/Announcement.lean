import RespKeyspace.Handshake
import RespKeyspace.Proofs.Reader.RoundTrip
import RespKeyspace.Proofs.Reader.TextBytes
import RespKeyspace.Server.Execution

/-! The announcement of a snapshot: it is one line, and the replication id in it is the
one that the primary put there. -/

namespace RespKeyspace

namespace Text

/-- A text that is one word. -/
def IsWord (text : String) : Prop := text ≠ "" ∧ text.toList.any isBlank = false

instance (text : String) : Decidable (IsWord text) :=
  inferInstanceAs (Decidable (text ≠ "" ∧ text.toList.any isBlank = false))

theorem wordsAfter_append (held : List Char) {chars : List Char}
    (clear : chars.any isBlank = false) (rest : List Char) :
    wordsAfter held (chars ++ rest) = wordsAfter (chars.reverse ++ held) rest := by
  induction chars generalizing held with
  | nil => rfl
  | cons char later ih =>
    rw [List.any_cons, Bool.or_eq_false_iff] at clear
    have behind := ih (char :: held) clear.2
    rw [List.cons_append, wordsAfter, clear.1]
    simpa using behind

private theorem words_append_space {word : String} (isWord : IsWord word) (rest : String) :
    words (word ++ " " ++ rest) = word :: words rest := by
  obtain ⟨filled, clear⟩ := isWord
  have some : word.toList.reverse.isEmpty = false := by
    simpa [List.isEmpty_iff] using filled
  have blank : isBlank ' ' = true := by decide
  unfold words
  rw [String.toList_append, String.toList_append, List.append_assoc, wordsAfter_append _ clear]
  simp [wordsAfter, blank, filled]

end Text

namespace Server

variable {server : Server}

private theorem resyncAnnouncement_eq :
    server.resyncAnnouncement =
      .simple ("FULLRESYNC" ++ " " ++ (server.replicationId ++ " " ++ "0")) := by
  simp [resyncAnnouncement, String.append_assoc]

/-- The replication id in an announcement is the primary's, if that is one word. -/
theorem announcedId?_resyncAnnouncement (isWord : Text.IsWord server.replicationId) :
    server.resyncAnnouncement.announcedId? = some server.replicationId := by
  rw [resyncAnnouncement_eq, Value.announcedId?,
    Text.words_append_space (by decide), Text.words_append_space isWord]
  rfl

theorem wellFormed_resyncAnnouncement (isWord : Text.IsWord server.replicationId) :
    Value.WellFormed Value.maxDepth server.resyncAnnouncement := by
  refine .simple (Bytes.not_lineEnd_infix_of_notMem (Bytes.carriageReturn_notMem_ofText ?_))
  have clear : '\r' ∉ server.replicationId.toList := by
    intro member
    have blank := List.any_eq_false.mp isWord.2 _ member
    simp [Text.isBlank] at blank
  simpa using clear

end Server

end RespKeyspace
