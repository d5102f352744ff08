import LiveStreaming.Streamer.HeaderPhase

/-!
# Sequence headers and the tags that need them

A decoder needs the last AVC sequence header before an AVC tag. The channel saves sequence headers
and sends them to a viewer once, in its header phase; one that comes later is not passed on.
-/

namespace LiveStreaming.Streamer
open Library

end LiveStreaming.Streamer
