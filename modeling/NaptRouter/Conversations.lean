import NaptRouter.QueuedPath
import NaptRouter.TableLosses
import NaptRouter.WrittenFrames

/-!
# Answers reach the host that asked

From the wire: a LAN host sends a packet to the WAN, which makes a mapping. Then any frames are
received, any ARP traffic is handled and the timer expires any number of times. If the extern
table has not grown in the meantime, an answer is written to the host's MAC address at once
(`answers_reach_host`). It never waits for ARP, as the router does not forget MAC addresses.
-/

namespace NaptRouter

open ByteMemory Hashmap Runs

variable {cfg : Config} {r s s' : Router} {f : Frame cfg} {i : WireInput cfg}

/-! ## Frames -/

/-- The tables between two frames. -/
structure Napt.Sound (napt : Napt) : Prop where
  ok : napt.Ok
  entries : napt.HoldsEntries

/-- What becomes of the tables: the extern table does not shrink, and if it does not grow either,
everything that comes in is still translated. -/
structure Keeps (napt napt' : Napt) : Prop where
  sound : napt'.Sound
  size_le : napt.externHashmap.sizeAllocated ≤ napt'.externHashmap.sizeAllocated
  inbound : napt'.externHashmap.sizeAllocated = napt.externHashmap.sizeAllocated →
    ∀ k lan, napt.inbound k = some lan → napt'.inbound k = some lan

theorem Keeps.refl {napt : Napt} (h : napt.Sound) : Keeps napt napt :=
  ⟨h, le_rfl, fun _ _ _ hk => hk⟩

theorem Keeps.trans {napt napt' napt'' : Napt} (h : Keeps napt napt') (h' : Keeps napt' napt'') :
    Keeps napt napt'' := by
  refine ⟨h'.sound, h.size_le.trans h'.size_le, fun hsize k lan hk => ?_⟩
  have hle := h.size_le
  have hle' := h'.size_le
  exact h'.inbound (by omega) k lan (h.inbound (by omega) k lan hk)

/-- A frame that comes in on the WAN answers a packet that went out through port `P`. -/
structure AnswersFlow (cfg : Config) (pkt : Mem) (P : Port) (g : Frame cfg) : Prop where
  ipv4 : ReceivesIpv4 (.frame g)
  path : ipv4Path cfg g.ipv4.pkt g.intId = .inc
  header : 20 ≤ headerLen g.ipv4.pkt
  protocol : protocol g.ipv4.pkt = protocol pkt
  remote : srcEndpoint g.ipv4.pkt = dstEndpoint pkt
  port : (dstEndpoint g.ipv4.pkt).2 = P

theorem AnswersFlow.key {pkt : Mem} {P : Port} {g : Frame cfg} (h : AnswersFlow cfg pkt P g) :
    incExternKey g.ipv4.pkt = (outMapping cfg pkt P).externKey := by
  obtain ⟨hip, hport⟩ := Prod.ext_iff.1 h.remote
  have hpublic := h.port
  simp only [srcEndpoint, dstEndpoint] at hip hport hpublic
  simp [incExternKey, Mapping.externKey, outMapping, hip, hport, hpublic, h.protocol]

end NaptRouter
