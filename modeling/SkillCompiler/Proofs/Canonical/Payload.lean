import SkillCompiler.Canonical.Statechart
import SkillCompiler.Proofs.Text.Leftmost

/-!
# The payload in expressions

The words by which expressions speak of a payload begin with an underscore. The only one that has
an underscore inside goes on there as no other does, and neither does what takes their place. So
they are apart from one another and from the event payload, and the order in which they are replaced
does not matter (`withEventData_any_order`).
-/

namespace SkillCompiler

namespace Canonical

open Text (Apart)

theorem apart_payloadWords :
    ∀ u ∈ payloadWords, ∀ v ∈ payloadWords, u ≠ v → Apart u.toList v.toList := by decide

theorem apart_eventData : ∀ word ∈ payloadWords, Apart word.toList eventData.toList := by decide

/-- Replacing the payload words in any order is replacing the leftmost occurrence of each of them at
once. -/
theorem foldl_replaceFirst_of_perm {order : List String} (h : order.Perm payloadWords)
    (expr : String) :
    order.foldl (fun expr word => Text.replaceFirst word eventData expr) expr =
      String.ofList
        (Text.replaceFirsts (payloadWords.map String.toList) eventData.toList expr.toList) := by
  have hnodup : order.Nodup := h.nodup_iff.2 (by decide)
  have hpairwise : order.Pairwise fun u v => Apart u.toList v.toList :=
    hnodup.imp_of_mem fun hu hv hne =>
      apart_payloadWords _ (h.mem_iff.1 hu) _ (h.mem_iff.1 hv) hne
  rw [Text.foldl_replaceFirst hpairwise fun word hword => apart_eventData word (h.mem_iff.1 hword),
    Text.replaceFirsts_perm (h.map String.toList)]

/-- In every order of the payload words, replacing the first of each gives the same expression: the
one with their leftmost occurrences replaced at once. No replacement makes or takes away the
leftmost occurrence of another word, or passes it. -/
theorem withEventData_any_order (expr : String) {order : List String}
    (h : order.Perm payloadWords) :
    order.foldl (fun expr word => Text.replaceFirst word eventData expr) expr =
      withEventData expr ∧
    withEventData expr =
      String.ofList
        (Text.replaceFirsts (payloadWords.map String.toList) eventData.toList expr.toList) ∧
    ∀ word ∈ payloadWords, ∀ other ∈ payloadWords, other ≠ word →
      Text.Spares word eventData other := by
  have hwords := foldl_replaceFirst_of_perm (List.Perm.refl payloadWords) expr
  refine ⟨(foldl_replaceFirst_of_perm h expr).trans hwords.symm, hwords, ?_⟩
  intro word hword other hother hne
  exact Text.spares_of_apart (apart_payloadWords other hother word hword hne)
    (apart_eventData other hother)

/-- Only the first of each word is replaced, also right behind another. -/
theorem withEventData_any_order_reversed :
    ["_wrapped_result.result.", "_feedback.", "_res.", "_msg."].foldl
        (fun expr word => Text.replaceFirst word eventData expr) "_res._msg.a+_res.b" =
      "_event.data._event.data.a+_res.b" ∧
    Text.Spares "_res." eventData "_msg." := by
  obtain ⟨horder, -, hspares⟩ := withEventData_any_order "_res._msg.a+_res.b"
    (List.reverse_perm payloadWords)
  have hvalue : withEventData "_res._msg.a+_res.b" = "_event.data._event.data.a+_res.b" := by decide
  exact ⟨horder.trans hvalue, hspares _ (by decide) _ (by decide) (by decide)⟩

end Canonical

end SkillCompiler
