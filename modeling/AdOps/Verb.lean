import AdOps.Platform

/-!
# Verbs

What a command asks for. A verb has one canonical name here; the words by which it can be typed
belong to the command grammars. Not every platform serves every verb.
-/

namespace AdOps

inductive Verb where
  | list
  | stats
  | spent
  | botTraffic
  | sources
  | widgetsTop
  | widgetsStats
  | widgetsHighCpa
  | widgetsLowCpa
  | widgetsKillLongtail
  | widgetsKillBot
  | widgetsTurnOnAll
deriving DecidableEq

namespace Verb

def all : List Verb :=
  [.list, .stats, .spent, .botTraffic, .sources, .widgetsTop, .widgetsStats, .widgetsHighCpa,
    .widgetsLowCpa, .widgetsKillLongtail, .widgetsKillBot, .widgetsTurnOnAll]

def name : Verb → String
  | .list => "list"
  | .stats => "stats"
  | .spent => "spent"
  | .botTraffic => "bot-traffic"
  | .sources => "sources"
  | .widgetsTop => "widgets-top"
  | .widgetsStats => "widgets-stats"
  | .widgetsHighCpa => "widgets-high-cpa"
  | .widgetsLowCpa => "widgets-low-cpa"
  | .widgetsKillLongtail => "widgets-kill-longtail"
  | .widgetsKillBot => "widgets-kill-bot"
  | .widgetsTurnOnAll => "widgets-turn-on-all"

end Verb

/-- Whether a platform serves a verb: the tracker lists its campaigns and sources and their stats,
the networks serve everything but sources. -/
def Platform.serves (p : Platform) (v : Verb) : Bool :=
  match p with
  | .thrive => v = .list || v = .stats || v = .sources
  | .mgid | .zeropark => v ≠ .sources

def Platform.verbs (p : Platform) : List Verb := Verb.all.filter p.serves

end AdOps
